import Ps2Servers.Http.Entries
import Ps2Servers.Lib.Tables

/-!
# The flat game list can be launched

The console reads the rows of `games.csv`, splitting at newlines and commas, and
asks for the second field of a row at the web root, with spaces percent-encoded
and every other byte sent as it is. A row whose name no other game shares is
answered from the file it was made of. A name that several games share is listed
once and answered 404, so that the wrong disc is never started.
-/

namespace Ps2Servers.Http

open Text

variable (u : Casing) (cfg : Config) (host : Host)

/-! ## The tables -/

/-- The key under which a game is looked up. -/
def flatKey (f : Found) : Str := lower u f.entry.advertised

/-- What the loop of `_rebuild_flat` has made of the games seen so far. -/
structure FlatOf (games : List Found) (acc : Flat) : Prop where
  keys_nodup : (acc.entries.map Prod.fst).Nodup
  mem_keys : ∀ key, key ∈ acc.entries.map Prod.fst ↔ key ∈ games.map (flatKey u)
  entry : ∀ p ∈ acc.entries, ∃ f ∈ games, p = (flatKey u f, f.entry)
  ambiguous : ∀ key, key ∈ acc.ambiguousNames ↔ 2 ≤ (games.map (flatKey u)).count key
  path : ∀ p ∈ acc.pathEntries, ∃ f ∈ games, f.dir.relDir ≠ lit "." ∧ p.1 = relPathKey u f

theorem FlatOf.step {games : List Found} {acc : Flat} (h : FlatOf u games acc) (f : Found) :
    FlatOf u (games ++ [f]) (addFlat u acc f) := by
  have hpath : ∀ p ∈ (addFlat u acc f).pathEntries,
      ∃ g ∈ games ++ [f], g.dir.relDir ≠ lit "." ∧ p.1 = relPathKey u g := by
    have hcons : (addFlat u acc f).pathEntries = if f.dir.relDir = lit "." then acc.pathEntries
        else (relPathKey u f, f.entry) :: acc.pathEntries := by
      simp only [addFlat]
      split <;> rfl
    intro p hp
    rw [hcons] at hp
    have hold (hp : p ∈ acc.pathEntries) :
        ∃ g ∈ games ++ [f], g.dir.relDir ≠ lit "." ∧ p.1 = relPathKey u g := by
      obtain ⟨g, hg, hrest⟩ := h.path p hp
      exact ⟨g, List.mem_append_left _ hg, hrest⟩
    split at hp
    · exact hold hp
    · rename_i hdot
      obtain rfl | hp := List.mem_cons.mp hp
      · exact ⟨f, by simp, hdot, rfl⟩
      · exact hold hp
  have hentry (p : Str × GameEntry) (hp : p ∈ acc.entries) :
      ∃ g ∈ games ++ [f], p = (flatKey u g, g.entry) := by
    obtain ⟨g, hg, hpg⟩ := h.entry p hp
    exact ⟨g, List.mem_append_left _ hg, hpg⟩
  have hcount (key : Str) : ((games ++ [f]).map (flatKey u)).count key =
      (games.map (flatKey u)).count key + if flatKey u f = key then 1 else 0 := by
    rw [List.map_append, List.count_append, List.map_singleton, List.count_singleton]
    simp only [beq_iff_eq]
  have hpos (key : Str) : key ∈ games.map (flatKey u) ↔ 1 ≤ (games.map (flatKey u)).count key :=
    List.count_pos_iff.symm
  by_cases hkey : flatKey u f ∈ acc.entries.map Prod.fst
  · -- a name that has been seen: only the set of shared names grows
    have hsome : (acc.entries.lookup (lower u f.entry.advertised)).isSome :=
      Tables.lookup_isSome.mpr hkey
    have hentries : (addFlat u acc f).entries = acc.entries := by simp only [addFlat, hsome, if_true]
    have hamb : (addFlat u acc f).ambiguousNames = flatKey u f :: acc.ambiguousNames := by
      simp only [addFlat, hsome, if_true]
      rfl
    have hseen := (h.mem_keys _).mp hkey
    refine ⟨?_, fun key => ?_, ?_, fun key => ?_, hpath⟩
    · rw [hentries]
      exact h.keys_nodup
    · rw [hentries, h.mem_keys, List.map_append, List.mem_append, List.map_singleton,
        List.mem_singleton]
      refine ⟨Or.inl, ?_⟩
      rintro (hmem | rfl)
      · exact hmem
      · exact hseen
    · rw [hentries]
      exact hentry
    · rw [hamb, List.mem_cons, h.ambiguous, hcount]
      by_cases heq : flatKey u f = key
      · subst heq
        have := (hpos _).mp hseen
        simp only [true_or, if_true, true_iff]
        omega
      · rw [if_neg heq]
        simp [Ne.symm heq]
  · -- a new name
    have hnone : (acc.entries.lookup (lower u f.entry.advertised)).isSome = false :=
      Bool.eq_false_iff.mpr fun hs => hkey (Tables.lookup_isSome.mp hs)
    have hentries : (addFlat u acc f).entries = acc.entries ++ [(flatKey u f, f.entry)] := by
      simp only [addFlat, hnone, Bool.false_eq_true, if_false]
      rfl
    have hamb : (addFlat u acc f).ambiguousNames = acc.ambiguousNames := by
      simp only [addFlat, hnone, Bool.false_eq_true, if_false]
    have hnew : flatKey u f ∉ games.map (flatKey u) := fun hm => hkey ((h.mem_keys _).mpr hm)
    refine ⟨?_, fun key => ?_, ?_, fun key => ?_, hpath⟩
    · rw [hentries, List.map_append, List.nodup_append]
      refine ⟨h.keys_nodup, by simp, fun a ha b hb hab => ?_⟩
      rw [List.map_singleton, List.mem_singleton] at hb
      rw [hab, hb] at ha
      exact hkey ha
    · rw [hentries, List.map_append, List.mem_append, h.mem_keys, List.map_append,
        List.mem_append]
      simp
    · rw [hentries]
      intro p hp
      obtain hp | hp := List.mem_append.mp hp
      · exact hentry p hp
      · exact ⟨f, by simp, List.mem_singleton.mp hp⟩
    · rw [hamb, h.ambiguous, hcount]
      by_cases heq : flatKey u f = key
      · subst heq
        have hzero : (games.map (flatKey u)).count (flatKey u f) = 0 :=
          List.count_eq_zero_of_not_mem hnew
        rw [hzero, if_pos rfl]
        omega
      · rw [if_neg heq, Nat.add_zero]

/-- The loop of `_rebuild_flat`, over all games. -/
theorem flatOf_foldl (games : List Found) :
    FlatOf u games (games.foldl (addFlat u) ⟨[], [], []⟩) := by
  induction games using List.reverseRecOn with
  | nil => exact ⟨by simp, by simp, by simp, by simp, by simp⟩
  | append_singleton games f ih =>
      rw [List.foldl_append]
      exact ih.step u f

theorem segments_of_mem_namedDir {name : Str} {media : Media} {d : Dir}
    (hd : d ∈ namedDir u cfg host name media) :
    ∃ actual, d.segments = [actual] ∧ lower u actual.1 = name := by
  unfold namedDir at hd
  dsimp only at hd
  split at hd
  · exact absurd hd (by simp)
  · rename_i actual hfind
    split at hd
    · rw [List.mem_singleton.mp hd]
      exact ⟨actual, rfl, by simpa using List.find?_some hfind⟩
    · exact absurd hd (by simp)

/-- Beside the games folder itself only `DVD` and `CD` are scanned, in any letter case. -/
theorem segments_of_mem_scanDirs (hcfg : cfg.recursive = false) {d : Dir}
    (hd : d ∈ scanDirs u cfg host) :
    d.segments = [] ∨ ∃ actual, d.segments = [actual] ∧
      (lower u actual.1 = lit "dvd" ∨ lower u actual.1 = lit "cd") := by
  simp only [scanDirs, hcfg, Bool.false_eq_true, if_false, List.mem_cons, List.mem_append] at hd
  rcases hd with rfl | hd | hd
  · exact Or.inl rfl
  · obtain ⟨actual, hseg, hname⟩ := segments_of_mem_namedDir u cfg host hd
    exact Or.inr ⟨actual, hseg, Or.inl hname⟩
  · obtain ⟨actual, hseg, hname⟩ := segments_of_mem_namedDir u cfg host hd
    exact Or.inr ⟨actual, hseg, Or.inr hname⟩

/-- A path below `DVD` or `CD` has a slash, which no bare name has. -/
theorem slash_mem_relPathKey (hcfg : cfg.recursive = false) {f : Found}
    (hf : f ∈ found u cfg host) (hdir : f.dir.relDir ≠ lit ".") : slash ∈ relPathKey u f := by
  obtain ⟨hscan, -⟩ := entryFor_of_mem_found u cfg host hf
  obtain hseg | ⟨actual, hseg, hname⟩ := segments_of_mem_scanDirs u cfg host hcfg hscan
  · exact absurd (by simp [Dir.relDir, hseg]) hdir
  · have hrel : f.dir.relDir = actual.1 := by simp [Dir.relDir, hseg, joinSlash, List.intercalate]
    have hback : backslash ∉ actual.1 := by
      intro hmem
      have hlow := asciiLower_mem_lower u hmem (by decide)
      obtain h | h := hname <;> rw [h] at hlow <;> exact absurd hlow (by decide)
    have hsame : (actual.1.map fun c => if c = backslash then slash else c) = actual.1 := by
      refine (List.map_congr_left fun c hc => ?_).trans (List.map_id _)
      refine if_neg ?_
      rintro rfl
      exact hback hc
    have hjoin : join actual.1 f.name.1 = actual.1 ++ [slash] ++ f.name.1 := by
      have hlast : actual.1.getLast? ≠ some slash := fun h =>
        actual.2.2.1 (List.mem_of_getLast? h)
      have hhead : f.name.1.head? ≠ some slash := fun h => f.name.2.2.1 (List.mem_of_head? h)
      rw [join, if_neg hhead, if_neg (by simp [actual.2.1.1, hlast])]
    have hregular : Regular (actual.1 ++ [slash] ++ f.name.1) := by
      unfold Regular
      rw [List.append_assoc, List.singleton_append,
        List.splitOn_append_cons_self_of_not_mem actual.2.2.1,
        List.splitOn_eq_singleton f.name.2.2.1]
      intro s hs
      rcases List.mem_cons.mp hs with rfl | hs
      · exact actual.2.1
      · rw [List.mem_singleton.mp hs]
        exact f.name.2.1
    rw [relPathKey]
    simp only [hrel, hsame, hjoin, hregular.normpath, hregular.lstripSlash, slash_mem_lower]
    simp

/-! ## Launching a row -/

/-- A name that reaches the server as it is: ASCII without white space other than blanks,
without `?`, `#` and anything that reads as a percent-escape. -/
def Plain (name : Str) : Prop :=
  (∀ c ∈ name, c.isAscii ∧ (c.toByte = 0x20 ∨ Visible c.toByte)) ∧
    hasEscape (name.map CodePoint.toByte) = false

instance (name : Str) : Decidable (Plain name) := inferInstanceAs (Decidable (_ ∧ _))

/-- The console's request for a row: blanks are encoded, every other byte is sent raw. -/
def consoleRequest (name : Bytes) : Bytes := percentEncode (fun b => b ≠ 0x20) (0x2f :: name)

def FlatIndex.answer (index : FlatIndex) (raw : Bytes) : Option Target :=
  (requestPath raw).map (index.target u)

/-- Several games of the folder carry the name, up to letter case. -/
def Shared (name : Str) : Prop :=
  2 ≤ ((found u cfg host).map (flatKey u)).count (lower u name)

instance (name : Str) : Decidable (Shared u cfg host name) := inferInstanceAs (Decidable (_ ≤ _))

/-- A request for a plain name comes to a lookup of that name. -/
theorem answer_plain (index : FlatIndex) {name stem ext : Str} (hname : Advertised name stem ext)
    (hplain : Plain name) :
    index.answer u (consoleRequest (encodeReplace name)) =
      some (.ofLookup (index.lookup u name)) := by
  have hfile := hname.isFileName
  have hencode := encode_ascii fun c hc => (hplain.1 c hc).1
  have hsafe : ∀ b ∈ name.map CodePoint.toByte, decide (b ≠ 0x20) → Visible b := by
    intro b hb hne
    obtain ⟨c, hc, rfl⟩ := List.mem_map.mp hb
    exact (hplain.1 c hc).2.resolve_left (by simpa using hne)
  obtain ⟨sent, hsent, hnorm⟩ := resolve_percentEncode hencode (hfile.1.regular hfile.2.1)
    hfile.2.2 hsafe (by decide) (Or.inr hplain.2)
  have hcsv : isGamesCsv u name = false := by
    rw [isGamesCsv, basename_of_notMem hfile.2.1]
    exact decide_eq_false (hname.not_gamesCsv u)
  rw [FlatIndex.answer, consoleRequest, encodeReplace_of_encode hencode, hsent, Option.map_some,
    FlatIndex.target, targetOf, hnorm]
  simp only [hcsv, Bool.false_eq_true, if_false]

/-- A bare name is looked up among the names, and not found when it is shared. -/
theorem lookup_rebuildFlat (hcfg : cfg.recursive = false) {name : Str} (hname : IsFileName name) :
    (rebuildFlat u cfg host).lookup u name =
      if Shared u cfg host name then none
      else (rebuildFlat u cfg host).entries.lookup (lower u name) := by
  have htables := flatOf_foldl u (found u cfg host)
  have hregular := hname.1.regular hname.2.1
  have hpath : (rebuildFlat u cfg host).pathEntries.lookup (lower u name) = none := by
    cases h : (rebuildFlat u cfg host).pathEntries.lookup (lower u name) with
    | none => rfl
    | some e =>
        obtain ⟨f, hf, hdir, hkey⟩ := htables.path _ (Tables.mem_of_lookup h)
        have hslash := slash_mem_relPathKey u cfg host hcfg hf hdir
        rw [← hkey, slash_mem_lower] at hslash
        exact absurd hslash hname.2.1
  simp only [FlatIndex.lookup, hregular.normpath, hregular.lstripSlash, hpath,
    basename_of_notMem hname.2.1]
  refine if_congr ?_ rfl rfl
  exact htables.ambiguous (lower u name)

/-! ## The rows -/

/-- The fields of a row, as the console splits them. -/
def consoleRows (csv : Bytes) : List (List Bytes) :=
  ((csv.splitOn 0x0a).filter (· ≠ [])).map (·.splitOn 0x2c)

def GameEntry.fields (e : GameEntry) : List Bytes :=
  [encodeReplace e.startup, encodeReplace e.advertised, encodeReplace e.media.text]

/-- A text without separators. -/
def Unseparated (s : Str) : Prop := CodePoint.char ',' ∉ s ∧ newline ∉ s

theorem Unseparated.encode {s : Str} (h : Unseparated s) :
    0x2c ∉ encodeReplace s ∧ 0x0a ∉ encodeReplace s := by
  constructor
  · intro hmem
    exact h.1 (mem_of_mem_encodeReplace hmem (by decide) (by decide))
  · intro hmem
    exact h.2 (mem_of_mem_encodeReplace hmem (by decide) (by decide))

theorem Unseparated.parseStartup {stem : Str} (h : Unseparated stem) :
    Unseparated (parseStartup u stem).1 := by
  have hmem : ∀ c ∈ (Http.parseStartup u stem).1, ∃ d ∈ stem, c = d ∨ d.asciiUpper = c := by
    intro c hc
    unfold Http.parseStartup at hc
    split at hc
    · rename_i id title hre
      obtain ⟨d, hd, rfl⟩ := List.mem_map.mp hc
      have hid : id = stem.take 11 := by
        unfold startupRe at hre
        dsimp only at hre
        split_ifs at hre
        obtain ⟨t, -, heq⟩ := Option.map_eq_some_iff.mp hre
        exact (Prod.ext_iff.mp heq).1.symm
      exact ⟨d, List.mem_of_mem_take (hid ▸ hd), Or.inr rfl⟩
    · exact ⟨c, List.mem_of_mem_take hc, Or.inl rfl⟩
  constructor
  · intro hc
    obtain ⟨d, hd, rfl | hup⟩ := hmem _ hc
    · exact h.1 hd
    · exact h.1 (eq_of_asciiUpper_eq (by decide) hup ▸ hd)
  · intro hc
    obtain ⟨d, hd, rfl | hup⟩ := hmem _ hc
    · exact h.2 hd
    · exact h.2 (eq_of_asciiUpper_eq (by decide) hup ▸ hd)

/-- What an entry of the flat profile is made of. -/
theorem flatEntry_spec {d : Dir} {stem advertised path : Str} {size : Nat} {compressed : Bool}
    {e : GameEntry} (h : flatEntry u d stem advertised path size compressed = some e)
    (hstem : ∀ c ∈ stem, c ∈ advertised) :
    e.advertised = advertised ∧ Unseparated e.advertised ∧ Unseparated e.startup := by
  unfold flatEntry at h
  split at h
  · exact absurd h (by simp)
  · split at h
    · exact absurd h (by simp)
    · rename_i hany
      obtain rfl := Option.some.inj h
      have hsep : Unseparated advertised := by
        constructor
        · exact fun hc => hany (List.any_eq_true.mpr ⟨.char ',', by decide, by simpa using hc⟩)
        · exact fun hc => hany (List.any_eq_true.mpr ⟨newline, by decide, by simpa using hc⟩)
      refine ⟨rfl, hsep, Unseparated.parseStartup u ⟨?_, ?_⟩⟩
      · exact fun hc => hsep.1 (hstem _ hc)
      · exact fun hc => hsep.2 (hstem _ hc)

/-- Every game of the flat profile. -/
theorem flat_of_mem_found (hcfg : cfg.profile = .legacyFlat) {f : Found}
    (hf : f ∈ found u cfg host) :
    (∃ stem ext, Advertised f.entry.advertised stem ext) ∧ Unseparated f.entry.advertised ∧
      Unseparated f.entry.startup := by
  obtain ⟨-, hentry⟩ := entryFor_of_mem_found u cfg host hf
  obtain ⟨advertised, ext, path, size, compressed, hadv, hflat⟩ := entryFor_spec u cfg host hentry
  rw [if_neg (by simp [hcfg])] at hflat
  obtain ⟨heq, hsep⟩ := flatEntry_spec u hflat fun c hc => hadv.eq ▸ List.mem_append_left _ hc
  exact ⟨⟨_, ext, heq ▸ hadv⟩, hsep⟩

theorem csvRow_eq (e : GameEntry) :
    e.csvRow = encodeReplace e.startup ++ 0x2c :: (encodeReplace e.advertised ++
      0x2c :: encodeReplace e.media.text) ++ [0x0a] := by
  have hcomma : encodeReplace (lit ",") = [0x2c] := by decide
  have hnewline : encodeReplace [newline] = [0x0a] := by decide
  simp only [GameEntry.csvRow, GameEntry.csvLine, encodeReplace_append, hcomma, hnewline,
    List.append_assoc, List.cons_append, List.nil_append]

/-- The console reads the rows that were written. -/
theorem consoleRows_flatMap {listed : List GameEntry}
    (h : ∀ e ∈ listed, Unseparated e.advertised ∧ Unseparated e.startup) :
    consoleRows (listed.flatMap GameEntry.csvRow) = listed.map GameEntry.fields := by
  induction listed with
  | nil => rfl
  | cons e listed ih =>
      obtain ⟨hadv, hstart⟩ := h e List.mem_cons_self
      have hmedia : Unseparated e.media.text := by
        unfold Unseparated
        cases e.media <;> decide
      have hrest := ih fun e' he' => h e' (List.mem_cons_of_mem _ he')
      have hline : 0x0a ∉ encodeReplace e.startup ++ 0x2c :: (encodeReplace e.advertised ++
          0x2c :: encodeReplace e.media.text) := by
        simp [hadv.encode.2, hstart.encode.2, hmedia.encode.2]
      rw [List.flatMap_cons, csvRow_eq, List.append_assoc, List.singleton_append]
      unfold consoleRows at hrest ⊢
      rw [List.splitOn_append_cons_self_of_not_mem hline, List.filter_cons_of_pos (by simp),
        List.map_cons, hrest, List.map_cons,
        List.splitOn_append_cons_self_of_not_mem hstart.encode.1,
        List.splitOn_append_cons_self_of_not_mem hadv.encode.1,
        List.splitOn_eq_singleton hmedia.encode.1]
      rfl

/-- Rows that do not fit are left out, the others are put in whole. -/
theorem foldl_addRow (entries : List GameEntry) {body : Bytes}
    (hbody : body.length ≤ GAMES_CSV_MAX) :
    ∃ kept : List GameEntry, kept.Sublist entries ∧
      (entries.map GameEntry.csvRow).foldl addRow body = body ++ kept.flatMap GameEntry.csvRow ∧
      (body ++ kept.flatMap GameEntry.csvRow).length ≤ GAMES_CSV_MAX := by
  induction entries generalizing body with
  | nil => exact ⟨[], List.Sublist.refl _, by simp, by simpa using hbody⟩
  | cons e entries ih =>
      rw [List.map_cons, List.foldl_cons, addRow]
      split
      · obtain ⟨kept, hsub, heq, hlen⟩ := ih hbody
        exact ⟨kept, hsub.cons e, heq, hlen⟩
      · rename_i hfits
        have hbody' : (body ++ e.csvRow).length ≤ GAMES_CSV_MAX := by
          rw [List.length_append]
          exact Nat.le_of_not_lt hfits
        obtain ⟨kept, hsub, heq, hlen⟩ := ih hbody'
        refine ⟨e :: kept, hsub.cons_cons e, ?_, ?_⟩
        · rw [heq, List.flatMap_cons, List.append_assoc]
        · rwa [List.flatMap_cons, ← List.append_assoc]

/-- Every row of the list is answered from the file it was made of. -/
def AllLaunchable : Prop :=
  ∃ listed : List GameEntry,
    consoleRows (rebuildFlat u cfg host).csv = listed.map GameEntry.fields ∧
    (rebuildFlat u cfg host).csv = listed.flatMap GameEntry.csvRow ∧
    (rebuildFlat u cfg host).csv.length ≤ GAMES_CSV_MAX ∧
    ∀ e ∈ listed, (∃ f ∈ found u cfg host, f.entry = e) ∧
      (rebuildFlat u cfg host).answer u (consoleRequest (encodeReplace e.advertised)) =
        some (.game e)

/-- **The flat list can be launched.** The generated list is made of whole rows and is at most
8192 bytes long. A row with a plain name is answered from the file it was made of, or, when
several games carry the name, with 404. -/
theorem flat_list_launchable (hcfg : cfg.profile = .legacyFlat)
    (hgenerated : servedDiskCsv host = none) :
    ∃ listed : List GameEntry,
      consoleRows (rebuildFlat u cfg host).csv = listed.map GameEntry.fields ∧
      (rebuildFlat u cfg host).csv = listed.flatMap GameEntry.csvRow ∧
      (rebuildFlat u cfg host).csv.length ≤ GAMES_CSV_MAX ∧
      ∀ e ∈ listed, (∃ f ∈ found u cfg host, f.entry = e) ∧
        (Plain e.advertised →
          (rebuildFlat u cfg host).answer u (consoleRequest (encodeReplace e.advertised)) =
            some (if Shared u cfg host e.advertised then .missing else .game e)) := by
  have hrec : cfg.recursive = false := by
    cases h : cfg.recursive with
    | false => rfl
    | true => exact absurd ((cfg.recursive_pathAware h).symm.trans hcfg) (by decide)
  have htables := flatOf_foldl u (found u cfg host)
  have hempty : ([] : Bytes).length ≤ GAMES_CSV_MAX := Nat.zero_le _
  obtain ⟨listed, hsub, heq, hlen⟩ := foldl_addRow
    (((rebuildFlat u cfg host).entries.map Prod.snd).insertionSort
      fun a b => Text.le (lower u a.advertised) (lower u b.advertised)) hempty
  have hcsv : (rebuildFlat u cfg host).csv = listed.flatMap GameEntry.csvRow := by
    simp only [rebuildFlat, hgenerated, Option.getD_none]
    exact heq
  have hentry : ∀ e ∈ listed, (lower u e.advertised, e) ∈ (rebuildFlat u cfg host).entries ∧
      ∃ f ∈ found u cfg host, f.entry = e := by
    intro e he
    obtain ⟨p, hp, rfl⟩ := List.mem_map.mp ((List.mem_insertionSort _).mp (hsub.subset he))
    obtain ⟨f, hf, rfl⟩ := htables.entry p hp
    exact ⟨hp, f, hf, rfl⟩
  have hflat : ∀ e ∈ listed, (∃ stem ext, Advertised e.advertised stem ext) ∧
      Unseparated e.advertised ∧ Unseparated e.startup := by
    intro e he
    obtain ⟨-, f, hf, rfl⟩ := hentry e he
    exact flat_of_mem_found u cfg host hcfg hf
  refine ⟨listed, ?_, hcsv, ?_, fun e he => ⟨(hentry e he).2, fun hplain => ?_⟩⟩
  · rw [hcsv]
    exact consoleRows_flatMap fun e he => (hflat e he).2
  · rw [hcsv]
    exact hlen
  · obtain ⟨⟨stem, ext, hadv⟩, -⟩ := hflat e he
    have hlookup : (rebuildFlat u cfg host).entries.lookup (lower u e.advertised) = some e :=
      Tables.lookup_of_mem htables.keys_nodup (hentry e he).1
    rw [answer_plain u _ hadv hplain, lookup_rebuildFlat u cfg host hrec hadv.isFileName, hlookup]
    by_cases hshared : Shared u cfg host e.advertised
    · rw [if_pos hshared, if_pos hshared]
      rfl
    · rw [if_neg hshared, if_neg hshared]
      rfl

def flatConfig : Config := ⟨lit "/srv", .legacyFlat, false, false, by decide, false, false⟩

/-- Two games of their own names, and two whose names differ by letter case. -/
def fourGames : Host :=
  rootOnly [⟨lit "A b.iso", by decide⟩, ⟨lit "C.iso", by decide⟩, ⟨lit "D.iso", by decide⟩,
    ⟨lit "d.iso", by decide⟩]

/-- Three rows; the two games with a name of their own are answered, the shared name is not. -/
theorem flat_list_fourGames :
    ∃ listed : List GameEntry,
      consoleRows (rebuildFlat asciiCasing flatConfig fourGames).csv =
        listed.map GameEntry.fields ∧
      listed.length = 3 ∧
      (∀ e ∈ listed, Plain e.advertised →
        (rebuildFlat asciiCasing flatConfig fourGames).answer
            asciiCasing (consoleRequest (encodeReplace e.advertised)) =
          some (if Shared asciiCasing flatConfig fourGames e.advertised then .missing
            else .game e)) ∧
      ¬ Shared asciiCasing flatConfig fourGames (lit "A b.iso") ∧
      Shared asciiCasing flatConfig fourGames (lit "d.iso") := by
  obtain ⟨listed, hrows, -, -, hlisted⟩ :=
    flat_list_launchable asciiCasing flatConfig fourGames rfl rfl
  have hthree : (consoleRows (rebuildFlat asciiCasing flatConfig fourGames).csv).length = 3 := by
    decide +kernel
  have hlength : listed.length = 3 := by
    rw [hrows, List.length_map] at hthree
    exact hthree
  exact ⟨listed, hrows, hlength, fun e he => (hlisted e he).2, by decide +kernel, by decide +kernel⟩

/-- `A.iso` and `a.iso` side by side: the one row of the list is answered 404. -/
theorem not_allLaunchable_twoCases :
    ¬ ∀ u cfg host, cfg.profile = .legacyFlat → servedDiskCsv host = none →
      AllLaunchable u cfg host := by
  intro h
  obtain ⟨listed, hrows, -, -, hlisted⟩ := h asciiCasing flatConfig
    (rootOnly [⟨lit "A.iso", by decide⟩, ⟨lit "a.iso", by decide⟩]) rfl rfl
  have hcsv : consoleRows (rebuildFlat asciiCasing flatConfig
      (rootOnly [⟨lit "A.iso", by decide⟩, ⟨lit "a.iso", by decide⟩])).csv =
        [[[0x41], encodeReplace (lit "A.iso"), [0x43, 0x44]]] := by decide +kernel
  rw [hcsv] at hrows
  cases listed with
  | nil => exact absurd hrows (by simp)
  | cons e listed =>
      have hname : encodeReplace e.advertised = encodeReplace (lit "A.iso") := by
        have hfields := (List.cons.inj hrows).1
        exact (List.cons.inj (List.cons.inj hfields).2).1.symm
      have hanswer := (hlisted e List.mem_cons_self).2
      rw [hname] at hanswer
      have hmissing : (rebuildFlat asciiCasing flatConfig
          (rootOnly [⟨lit "A.iso", by decide⟩, ⟨lit "a.iso", by decide⟩])).answer asciiCasing
            (consoleRequest (encodeReplace (lit "A.iso"))) = some .missing := by decide +kernel
      rw [hmissing] at hanswer
      exact absurd hanswer (by simp)

end Ps2Servers.Http
