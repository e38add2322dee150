import Ps2Servers.WebUi.Uci

/-!
# Reading a listing

Each line of a listing sets the field of its option and leaves the others alone. A value is read
back from its line when no quote is lost.
-/

namespace Ps2Servers.WebUi

open Strconv (atoi itoa)

variable {F : Type} {fl : Floats F}

/-! ## Fields -/

theorem EdgeConfig.ext_get {c d : EdgeConfig F} (h : ∀ o, c.get o = d.get o) : c = d := by
  obtain ⟨⟨⟩, ⟨⟩, ⟨⟩, ⟨⟩⟩ := c
  obtain ⟨⟨⟩, ⟨⟩, ⟨⟩, ⟨⟩⟩ := d
  simp only [mk.injEq, UDPFSConfig.mk.injEq, SMBConfig.mk.injEq, UDPBDConfig.mk.injEq,
    WebUIConfig.mk.injEq]
  refine ⟨⟨?_, ?_, ?_, ?_, ?_, ?_, ?_, ?_, ?_, ?_, ?_, ?_, ?_, ?_, ?_, ?_, ?_, ?_, ?_, ?_⟩,
    ⟨?_, ?_, ?_, ?_, ?_, ?_, ?_, ?_, ?_⟩, ⟨?_, ?_, ?_, ?_, ?_, ?_, ?_, ?_, ?_⟩, ⟨?_, ?_, ?_⟩⟩
  · exact Value.bool.inj (h (.main .enabled))
  · exact Value.string.inj (h (.main .root))
  · exact Value.string.inj (h (.main .bind))
  · exact Value.int.inj (h (.main .port))
  · exact Value.int.inj (h (.main .dataPort))
  · exact Value.string.inj (h (.main .protocol))
  · exact Value.bool.inj (h (.main .singlePort))
  · exact Value.bool.inj (h (.main .readOnly))
  · exact Value.string.inj (h (.main .peerTimeout))
  · exact Value.float.inj (h (.main .txDelayMs))
  · exact Value.bool.inj (h (.main .udpBatch))
  · exact Value.string.inj (h (.main .logFormat))
  · exact Value.bool.inj (h (.main .verbose))
  · exact Value.string.inj (h (.main .blockDevice))
  · exact Value.int.inj (h (.main .sectorSize))
  · exact Value.bool.inj (h (.main .noCompression))
  · exact Value.int.inj (h (.main .compressionCacheSize))
  · exact Value.bool.inj (h (.main .metrics))
  · exact Value.string.inj (h (.main .metricsPeriod))
  · exact Value.bool.inj (h (.main .sessionSummary))
  · exact Value.bool.inj (h (.smb .enabled))
  · exact Value.string.inj (h (.smb .path))
  · exact Value.string.inj (h (.smb .bind))
  · exact Value.int.inj (h (.smb .port))
  · exact Value.bool.inj (h (.smb .readOnly))
  · exact Value.int.inj (h (.smb .statusPort))
  · exact Value.string.inj (h (.smb .logFormat))
  · exact Value.bool.inj (h (.smb .verbose))
  · exact Value.bool.inj (h (.smb .sessionSummary))
  · exact Value.bool.inj (h (.udpbd .enabled))
  · exact Value.string.inj (h (.udpbd .path))
  · exact Value.string.inj (h (.udpbd .bind))
  · exact Value.int.inj (h (.udpbd .port))
  · exact Value.bool.inj (h (.udpbd .readOnly))
  · exact Value.int.inj (h (.udpbd .statusPort))
  · exact Value.string.inj (h (.udpbd .logFormat))
  · exact Value.bool.inj (h (.udpbd .verbose))
  · exact Value.bool.inj (h (.udpbd .sessionSummary))
  · exact Value.bool.inj (h (.webui .enabled))
  · exact Value.int.inj (h (.webui .port))
  · exact Value.string.inj (h (.webui .bind))

/-- A line leaves the other fields alone. -/
theorem get_load_of_ne {o p : UciOption} (h : p ≠ o) (c : EdgeConfig F) (val : Bytes) :
    (c.load fl val o).get p = c.get p := by
  cases o with
  | main o =>
      cases p with
      | main p => cases o <;> cases p <;> first | rfl | exact absurd rfl h
      | _ => rfl
  | smb o =>
      cases p with
      | smb p => cases o <;> cases p <;> first | rfl | exact absurd rfl h
      | _ => rfl
  | udpbd o =>
      cases p with
      | udpbd p => cases o <;> cases p <;> first | rfl | exact absurd rfl h
      | _ => rfl
  | webui o =>
      cases p with
      | webui p => cases o <;> cases p <;> first | rfl | exact absurd rfl h
      | _ => rfl

theorem isOne_text (v : Bool) : isOne (if v then ascii "1" else ascii "0") = v := by
  cases v <;> rfl

theorem uciBool_text (v : Bool) : uciBool (if v then ascii "1" else ascii "0") = v := by
  cases v <;> rfl

/-- The text of a value reads as the value. -/
theorem get_load_self (c d : EdgeConfig F) (o : UciOption) :
    (c.load fl ((d.get o).text fl) o).get o = d.get o := by
  have hint : ∀ (n old : Int64), (Value.int ((atoi (itoa n)).getD old) : Value F) = .int n := by
    intro n old
    rw [Strconv.atoi_itoa, Option.getD_some]
  have hbool : ∀ v : Bool, (Value.bool (isOne (if v then ascii "1" else ascii "0")) : Value F) =
      .bool v := fun v => by rw [isOne_text]
  cases o with
  | main o =>
      cases o with
      | txDelayMs =>
          change Value.float ((fl.parseFloat (fl.formatFloat d.udpfs.txDelayMs)).getD _) = _
          rw [fl.parse_format, Option.getD_some]
          rfl
      | udpBatch =>
          change Value.bool (uciBool (if d.udpfs.udpBatch then ascii "1" else ascii "0")) = _
          rw [uciBool_text]
          rfl
      | _ => first | rfl | exact hint _ _ | exact hbool _
  | smb o => cases o <;> first | rfl | exact hint _ _ | exact hbool _
  | udpbd o => cases o <;> first | rfl | exact hint _ _ | exact hbool _
  | webui o => cases o <;> first | rfl | exact hint _ _ | exact hbool _

/-! ## Keys -/

theorem mem_OPTIONS (o : UciOption) : o ∈ OPTIONS := by
  cases o with
  | main o => cases o <;> exact List.mem_of_elem_eq_true rfl
  | smb o => cases o <;> exact List.mem_of_elem_eq_true rfl
  | udpbd o => cases o <;> exact List.mem_of_elem_eq_true rfl
  | webui o => cases o <;> exact List.mem_of_elem_eq_true rfl

theorem find_key (o : UciOption) : (OPTIONS.find? fun p => p.key = o.key) = some o := by
  have hall : ∀ o ∈ OPTIONS, (OPTIONS.find? fun p => p.key = o.key) = some o := by
    decide +kernel
  exact hall o (mem_OPTIONS o)

theorem key_injective {o p : UciOption} (h : o.key = p.key) : o = p := by
  have ho := find_key o
  rw [h, find_key p] at ho
  exact (Option.some.inj ho).symm

/-- A key starts with a letter and has neither `=` nor a line break. -/
theorem key_plain (o : UciOption) :
    o.key.head? = some 0x70 ∧ 0x3d ∉ o.key ∧ 0x0a ∉ o.key := by
  have hall : ∀ o ∈ OPTIONS, o.key.head? = some 0x70 ∧ 0x3d ∉ o.key ∧ 0x0a ∉ o.key := by
    decide +kernel
  exact hall o (mem_OPTIONS o)

/-! ## Lines of the listing -/

theorem trimStart_of_none {spaces : List Bytes} {text : Bytes}
    (h : (spaces.find? fun space => space.isPrefixOf text) = none) (fuel : Nat) :
    trimStart spaces fuel text = text := by
  cases fuel with
  | zero => rfl
  | succ fuel =>
      unfold trimStart
      rw [h]

/-- A line of an option neither starts nor ends with a space. -/
theorem trimSpace_line (front back : Bytes) :
    trimSpace (0x70 :: front ++ (back ++ [0x27])) = 0x70 :: front ++ (back ++ [0x27]) := by
  have hreverse : (0x70 :: front ++ (back ++ [0x27])).reverse =
      0x27 :: (back.reverse ++ (0x70 :: front).reverse) := by
    rw [List.reverse_append, List.reverse_append]
    rfl
  have hstart : trimStart SPACES (0x70 :: front ++ (back ++ [0x27])).length
      (0x70 :: front ++ (back ++ [0x27])) = 0x70 :: front ++ (back ++ [0x27]) :=
    trimStart_of_none rfl _
  unfold trimSpace
  dsimp only
  rw [hstart, hreverse, trimStart_of_none rfl, ← hreverse, List.reverse_reverse]

/-- What is between the quotes of a listed value. -/
def escape (value : Bytes) : Bytes :=
  value.flatMap fun b => if b = 0x27 then [0x27, 0x5c, 0x27, 0x27] else [b]

theorem quote_eq (value : Bytes) : quote value = 0x27 :: escape value ++ [0x27] := rfl

theorem not_mem_quote {value : Bytes} (h : 0x0a ∉ value) : 0x0a ∉ quote value := by
  intro hmem
  rw [quote_eq, List.mem_append, List.mem_cons, List.mem_singleton] at hmem
  rcases hmem with (hmem | hmem) | hmem
  · exact absurd hmem (by decide)
  · obtain ⟨b, hb, hmem⟩ := List.mem_flatMap.mp hmem
    split at hmem
    · exact absurd hmem (by decide)
    · rw [List.mem_singleton.mp hmem] at h
      exact h hb
  · exact absurd hmem (by decide)

theorem not_mem_showEntry (o : UciOption) {value : Bytes} (h : 0x0a ∉ value) :
    0x0a ∉ showEntry (o.key, value) := by
  intro hmem
  rcases List.mem_append.mp hmem with hmem | hmem
  · exact (key_plain o).2.2 hmem
  · rcases List.mem_cons.mp hmem with hmem | hmem
    · exact absurd hmem (by decide)
    · exact not_mem_quote h hmem

theorem readLine_showEntry (o : UciOption) (value : Bytes) :
    readLine (showEntry (o.key, value)) = some (o, trimQuotes (quote value)) := by
  obtain ⟨hhead, hkey, -⟩ := key_plain o
  obtain ⟨rest, hrest⟩ : ∃ rest, o.key = 0x70 :: rest := by
    cases hcons : o.key with
    | nil =>
        rw [hcons] at hhead
        cases hhead
    | cons b rest =>
        rw [hcons] at hhead
        exact ⟨rest, congrArg (· :: rest) (Option.some.inj hhead)⟩
  have hline : showEntry (o.key, value) =
      0x70 :: rest ++ ((0x3d :: 0x27 :: escape value) ++ [0x27]) := by
    rw [showEntry, quote_eq, hrest]
    rfl
  have htrim : trimSpace (showEntry (o.key, value)) = o.key ++ 0x3d :: quote value := by
    rw [hline, trimSpace_line, ← hline]
    rfl
  have htake : (o.key ++ 0x3d :: quote value).takeWhile (· ≠ 0x3d) = o.key := by
    rw [List.takeWhile_append_of_pos]
    · rw [List.takeWhile_cons_of_neg (by decide), List.append_nil]
    · intro b hb
      exact decide_eq_true fun heq => hkey (heq ▸ hb)
  unfold readLine
  dsimp only
  rw [htrim, htake, List.drop_left]
  dsimp only
  rw [find_key]
  rfl

/-- What the lines of an entry do. -/
def loadEntry (fl : Floats F) (c : EdgeConfig F) (entry : Bytes × Bytes) : EdgeConfig F :=
  ((showEntry entry).splitOn 0x0a).foldl (loadLine fl) c

theorem load_show (s : Options) :
    load fl (.ok s.show) = .ok (s.entries.foldl (loadEntry fl) (defaultConfig fl)) := by
  have hlines : ∀ entries : List (Bytes × Bytes),
      (entries.flatMap fun entry => showEntry entry ++ [0x0a]).splitOn 0x0a =
        (entries.flatMap fun entry => (showEntry entry).splitOn 0x0a) ++ [[]] := by
    intro entries
    induction entries with
    | nil => rfl
    | cons entry rest ih =>
        rw [List.flatMap_cons, List.append_assoc, List.singleton_append,
          List.splitOn_append_cons_self, ih, List.flatMap_cons, List.append_assoc]
  unfold load Options.show
  dsimp only
  rw [hlines, List.foldl_append, List.foldl_flatMap]
  rfl

theorem loadEntry_option (c : EdgeConfig F) (o : UciOption) {value : Bytes}
    (h : 0x0a ∉ value) :
    loadEntry fl c (o.key, value) = c.load fl (trimQuotes (quote value)) o := by
  unfold loadEntry
  rw [List.splitOn_eq_singleton (not_mem_showEntry o h), List.foldl_cons, List.foldl_nil]
  unfold loadLine
  rw [readLine_showEntry]

/-- No line of another option of the package is read as one of the options. -/
def Options.Quiet (s : Options) : Prop :=
  ∀ entry ∈ s.entries, (∀ o : UciOption, entry.1 ≠ o.key) →
    ∀ line ∈ (showEntry entry).splitOn 0x0a, readLine line = none

theorem loadEntry_other {s : Options} (hs : s.Quiet) {entry : Bytes × Bytes}
    (hentry : entry ∈ s.entries) (h : ∀ o : UciOption, entry.1 ≠ o.key) (c : EdgeConfig F) :
    loadEntry fl c entry = c := by
  have hlines := hs entry hentry h
  unfold loadEntry
  generalize (showEntry entry).splitOn 0x0a = lines at hlines
  induction lines with
  | nil => rfl
  | cons line rest ih =>
      rw [List.foldl_cons, loadLine, hlines line List.mem_cons_self]
      exact ih fun line hline => hlines line (List.mem_cons_of_mem _ hline)

/-- The values of the options are on one line each. -/
def Options.OneLine (s : Options) : Prop :=
  ∀ o : UciOption, ∀ value, (o.key, value) ∈ s.entries → 0x0a ∉ value

theorem get_loadEntry_of_ne {s : Options} (hquiet : s.Quiet) (hline : s.OneLine) {o : UciOption}
    {entry : Bytes × Bytes} (hentry : entry ∈ s.entries) (h : entry.1 ≠ o.key)
    (c : EdgeConfig F) : (loadEntry fl c entry).get o = c.get o := by
  by_cases hkey : ∃ p : UciOption, entry.1 = p.key
  · obtain ⟨p, hp⟩ := hkey
    obtain ⟨key, value⟩ := entry
    dsimp only at hp h
    subst hp
    rw [loadEntry_option c p (hline p value hentry)]
    exact get_load_of_ne (fun heq => h (congrArg UciOption.key heq.symm)) c _
  · rw [loadEntry_other hquiet hentry (fun p hp => hkey ⟨p, hp⟩)]

/-- An option that is not in the store keeps its default. -/
theorem get_load_of_not_mem {s : Options} (hquiet : s.Quiet) (hline : s.OneLine) {o : UciOption}
    (h : o.key ∉ s.entries.map Prod.fst) (c : EdgeConfig F) :
    (s.entries.foldl (loadEntry fl) c).get o = c.get o := by
  have hall : ∀ entry ∈ s.entries, ∀ c : EdgeConfig F, (loadEntry fl c entry).get o = c.get o :=
    fun entry hentry c => get_loadEntry_of_ne hquiet hline hentry
      (fun heq => h (heq ▸ List.mem_map_of_mem hentry)) c
  generalize s.entries = entries at hall
  induction entries generalizing c with
  | nil => rfl
  | cons entry rest ih =>
      rw [List.foldl_cons, ih _ fun e he => hall e (List.mem_cons_of_mem _ he),
        hall entry List.mem_cons_self]

/-- An option that is in the store is read from its line. -/
theorem get_load_of_mem {s : Options} (hquiet : s.Quiet) (hline : s.OneLine) {o : UciOption}
    {value : Bytes} (h : (o.key, value) ∈ s.entries) (c : EdgeConfig F) :
    ∃ d : EdgeConfig F, (s.entries.foldl (loadEntry fl) c).get o =
      (d.load fl (trimQuotes (quote value)) o).get o := by
  obtain ⟨front, back, hsplit⟩ := List.append_of_mem h
  have hback : ∀ entry ∈ back, ∀ c : EdgeConfig F, (loadEntry fl c entry).get o = c.get o := by
    intro entry hentry c
    have hnodup := s.nodup
    rw [hsplit, List.map_append, List.map_cons] at hnodup
    apply get_loadEntry_of_ne hquiet hline (by rw [hsplit]; simp [hentry])
    intro heq
    have hmem : entry.1 ∈ back.map Prod.fst := List.mem_map_of_mem hentry
    rw [heq] at hmem
    exact (List.nodup_cons.mp (List.nodup_append.mp hnodup).2.1).1 hmem
  refine ⟨front.foldl (loadEntry fl) c, ?_⟩
  rw [hsplit, List.foldl_append, List.foldl_cons, loadEntry_option _ o (hline o value h)]
  generalize (front.foldl (loadEntry fl) c).load fl (trimQuotes (quote value)) o = d
  clear hsplit h
  induction back generalizing d with
  | nil => rfl
  | cons entry rest ih =>
      rw [List.foldl_cons, ih (fun e he => hback e (List.mem_cons_of_mem _ he)),
        hback entry List.mem_cons_self]

/-! ## Quotes -/

theorem isQuote_head_dropWhile {text : Bytes} {b : UInt8}
    (h : (text.dropWhile isQuote).head? = some b) : isQuote b = false := by
  have hnot := List.head?_dropWhile_not isQuote text
  rw [h] at hnot
  exact hnot

theorem isQuote_last_trimQuotes {text : Bytes} {b : UInt8}
    (h : (trimQuotes text).getLast? = some b) : isQuote b = false := by
  rw [trimQuotes, List.getLast?_reverse] at h
  exact isQuote_head_dropWhile h

theorem isQuote_head_trimQuotes {text : Bytes} {b : UInt8}
    (h : (trimQuotes text).head? = some b) : isQuote b = false := by
  have hprefix : trimQuotes text <+: text.dropWhile isQuote := by
    rw [← List.reverse_reverse (text.dropWhile isQuote), trimQuotes, List.reverse_prefix]
    exact List.dropWhile_suffix _
  obtain ⟨rest, hrest⟩ := hprefix
  have hhead : (text.dropWhile isQuote).head? = some b := by
    rw [← hrest, List.head?_append, h]
    rfl
  exact isQuote_head_dropWhile hhead

/-- Quotes around a text that has none at its ends are taken off. -/
theorem trimQuotes_between {text : Bytes} (hne : text ≠ [])
    (hhead : ∀ b, text.head? = some b → isQuote b = false)
    (hlast : ∀ b, text.getLast? = some b → isQuote b = false) :
    trimQuotes (0x27 :: text ++ [0x27]) = text := by
  have hstop : ∀ l : Bytes, l ≠ [] → (∀ b, l.head? = some b → isQuote b = false) →
      ∀ back, (0x27 :: l ++ back).dropWhile isQuote = l ++ back := by
    intro l hl hfirst back
    cases l with
    | nil => exact absurd rfl hl
    | cons b rest =>
        rw [List.cons_append, List.dropWhile_cons_of_pos (by decide), List.cons_append,
          List.dropWhile_cons_of_neg (by rw [hfirst b rfl]; exact Bool.false_ne_true)]
  have hreverse := hstop text.reverse (fun h => hne (List.reverse_eq_nil_iff.mp h))
    (fun b hb => hlast b (List.head?_reverse.symm.trans hb)) []
  unfold trimQuotes
  rw [hstop text hne hhead, List.reverse_append, List.reverse_singleton, List.singleton_append]
  rw [List.append_nil, List.append_nil] at hreverse
  rw [hreverse, List.reverse_reverse]

theorem length_escape (value : Bytes) :
    (escape value).length = value.length + 3 * value.count 0x27 := by
  induction value with
  | nil => rfl
  | cons b rest ih =>
      have hcons : escape (b :: rest) =
          (if b = 0x27 then [0x27, 0x5c, 0x27, 0x27] else [b]) ++ escape rest := rfl
      rw [hcons, List.length_append, ih, List.length_cons]
      by_cases hb : b = 0x27
      · rw [if_pos hb, hb, List.count_cons_self]
        simp only [List.length_cons, List.length_nil]
        omega
      · rw [if_neg hb, List.count_cons_of_ne hb, List.length_singleton]
        omega

theorem escape_of_not_mem {value : Bytes} (h : 0x27 ∉ value) : escape value = value := by
  induction value with
  | nil => rfl
  | cons b rest ih =>
      have hcons : escape (b :: rest) =
          (if b = 0x27 then [0x27, 0x5c, 0x27, 0x27] else [b]) ++ escape rest := rfl
      rw [hcons, ih fun hmem => h (List.mem_cons_of_mem b hmem),
        if_neg fun hb : b = 0x27 => h (hb ▸ List.mem_cons_self)]
      rfl

/-- The escape starts and ends as a text that has no quote at its ends. -/
theorem escape_ends {value : Bytes} (hhead : ∀ b, value.head? = some b → isQuote b = false)
    (hlast : ∀ b, value.getLast? = some b → isQuote b = false) :
    (escape value).head? = value.head? ∧ (escape value).getLast? = value.getLast? := by
  have hsingle : ∀ b, isQuote b = false →
      (if b = 0x27 then [0x27, 0x5c, 0x27, 0x27] else [b]) = [b] := by
    intro b hb
    apply if_neg
    rintro rfl
    exact absurd hb (by decide)
  constructor
  · cases value with
    | nil => rfl
    | cons b rest =>
        rw [escape, List.flatMap_cons, hsingle b (hhead b rfl)]
        rfl
  · rcases List.eq_nil_or_concat value with rfl | ⟨front, b, rfl⟩
    · rfl
    · rw [List.concat_eq_append] at hlast ⊢
      rw [escape, List.flatMap_append, List.flatMap_singleton,
        hsingle b (hlast b (List.getLast?_concat)), List.getLast?_concat, List.getLast?_concat]

/-- A text keeps its quotes: it has no single quote, and no double quote at its ends. -/
def Unquoted (value : Bytes) : Prop :=
  0x27 ∉ value ∧ value.head? ≠ some 0x22 ∧ value.getLast? ≠ some 0x22

instance (value : Bytes) : Decidable (Unquoted value) :=
  inferInstanceAs (Decidable (_ ∧ _ ∧ _))

theorem isQuote_eq_false {b : UInt8} (hsingle : b ≠ 0x27) (hdouble : b ≠ 0x22) :
    isQuote b = false := by
  rw [isQuote, decide_eq_false hsingle, decide_eq_false hdouble]
  rfl

/-- What is listed is read back when no quote is lost. -/
theorem trimQuotes_quote_iff {value : Bytes} (hne : value ≠ []) :
    trimQuotes (quote value) = value ↔ Unquoted value := by
  rw [quote_eq]
  constructor
  · intro h
    have hhead : ∀ b, value.head? = some b → isQuote b = false := by
      intro b hb
      rw [← h] at hb
      exact isQuote_head_trimQuotes hb
    have hlast : ∀ b, value.getLast? = some b → isQuote b = false := by
      intro b hb
      rw [← h] at hb
      exact isQuote_last_trimQuotes hb
    refine ⟨?_, fun hb => absurd (hhead _ hb) (by decide), fun hb => absurd (hlast _ hb) (by decide)⟩
    -- the text starts and ends with other bytes, so what is listed is trimmed to its escape
    obtain ⟨hfirst, hfinal⟩ := escape_ends hhead hlast
    have hescape : escape value = value := by
      refine (trimQuotes_between ?_ (hfirst ▸ hhead) (hfinal ▸ hlast)).symm.trans h
      intro hnil
      rw [hnil] at hfirst
      exact hne (List.head?_eq_none_iff.mp hfirst.symm)
    have hcount := length_escape value
    rw [hescape] at hcount
    exact List.count_eq_zero.mp (by omega)
  · rintro ⟨hsingle, hhead, hlast⟩
    rw [escape_of_not_mem hsingle]
    apply trimQuotes_between hne
    · intro b hb
      refine isQuote_eq_false (fun heq => hsingle ?_) fun heq => hhead (heq ▸ hb)
      exact heq ▸ List.mem_of_mem_head? hb
    · intro b hb
      refine isQuote_eq_false (fun heq => hsingle ?_) fun heq => hlast (heq ▸ hb)
      exact heq ▸ List.mem_of_getLast? hb

end Ps2Servers.WebUi
