import Ps2Servers.Http.Catalogue

/-!
# Entries of the game list

What `_entry_for` guarantees of the games it takes, whatever the profile: an
advertised name is the stem of a file with an extension the console knows.
-/

namespace Ps2Servers.Http

open Text

variable (u : Casing) (cfg : Config) (host : Host)

/-! ## Advertised names -/

/-- What every advertised name looks like. -/
structure Advertised (name : Str) (stem ext : Str) : Prop where
  eq : name = stem ++ ext
  ext : ext = lit ".iso" ∨ ext = lit ".zso"
  slash : slash ∉ stem
  nul : nul ∉ stem

theorem Advertised.length {name stem ext : Str} (h : Advertised name stem ext) :
    4 ≤ name.length := by
  rw [h.eq, List.length_append]
  obtain hext | hext := h.ext <;> rw [hext] <;> exact Nat.le_add_left _ _

theorem Advertised.isFileName {name stem ext : Str} (h : Advertised name stem ext) :
    IsFileName name := by
  have hlen := h.length
  refine ⟨⟨?_, ?_, ?_⟩, ?_, ?_⟩
  · rintro rfl
    exact absurd hlen (by decide)
  · rintro rfl
    exact absurd hlen (by decide)
  · rintro rfl
    exact absurd hlen (by decide)
  · rw [h.eq, List.mem_append]
    rintro (hmem | hmem)
    · exact h.slash hmem
    · obtain hext | hext := h.ext <;> rw [hext] at hmem <;> exact absurd hmem (by decide)
  · rw [h.eq, List.mem_append]
    rintro (hmem | hmem)
    · exact h.nul hmem
    · obtain hext | hext := h.ext <;> rw [hext] at hmem <;> exact absurd hmem (by decide)

/-- The name of a game is not the name of the list. -/
theorem Advertised.not_gamesCsv {name stem ext : Str} (h : Advertised name stem ext) :
    lower u name ≠ lit "games.csv" := by
  have hascii : ∀ c ∈ ext, c.isAscii := by
    obtain hext | hext := h.ext <;> rw [hext] <;> decide
  obtain ⟨s, hs⟩ := lower_append_ascii u stem hascii
  have hlast : (ext.map CodePoint.asciiLower).getLast? = some (.char 'o') := by
    obtain hext | hext := h.ext <;> rw [hext] <;> decide
  rw [h.eq, hs]
  intro heq
  have hcsv := congrArg List.getLast? heq
  rw [List.getLast?_append, hlast, Option.some_or] at hcsv
  exact absurd hcsv (by decide)

/-- The stem of a name is a part of it. -/
theorem splitext_fst_subset (name : Str) : (splitext name).1 ⊆ name := by
  unfold splitext
  dsimp only
  split
  · exact fun c hc => hc
  · intro c hc
    exact (List.rdropWhile_prefix _ _).subset (List.dropLast_subset _ hc)

/-- A listed file's advertised name: its stem with an extension the console knows. -/
theorem advertise_spec {path stem ext : Str} {advertised : Str} {size : Nat} {compressed : Bool}
    (h : advertise cfg host path stem ext = some (advertised, size, compressed)) :
    ∃ ext', advertised = stem ++ ext' ∧ (ext' = lit ".iso" ∨ ext' = lit ".zso") := by
  unfold advertise at h
  split at h
  · obtain ⟨size, -, heq⟩ := Option.map_eq_some_iff.mp h
    exact ⟨_, (Prod.ext_iff.mp heq).1.symm, Or.inl rfl⟩
  · split at h
    · obtain ⟨size, -, heq⟩ := Option.map_eq_some_iff.mp h
      refine ⟨_, (Prod.ext_iff.mp heq).1.symm, ?_⟩
      split
      · exact Or.inl rfl
      · exact Or.inr rfl
    · exact absurd h (by simp)

/-- What `_entry_for` made of a file before the profiles part. -/
theorem entryFor_spec {d : Dir} {name : FileName} {e : GameEntry}
    (h : entryFor u cfg host d name = some e) :
    ∃ advertised ext' path size compressed,
      Advertised advertised (splitext name.1).1 ext' ∧
        (if cfg.profile = .riptoplPathAware then
          pathAwareEntry u cfg host d (splitext name.1).1 advertised path size compressed
        else flatEntry u d (splitext name.1).1 advertised path size compressed) = some e := by
  unfold entryFor at h
  dsimp only at h
  split at h
  · exact absurd h (by simp)
  · rename_i advertised size compressed hadv
    split at h
    · exact absurd h (by simp)
    · obtain ⟨ext', heq, hext⟩ := advertise_spec cfg host hadv
      refine ⟨advertised, ext', _, size, compressed, ⟨heq, hext, ?_, ?_⟩, h⟩
      · exact fun hmem => name.2.2.1 (splitext_fst_subset name.1 hmem)
      · exact fun hmem => name.2.2.2 (splitext_fst_subset name.1 hmem)

/-- Every game found is an entry of a file in a scanned directory. -/
theorem entryFor_of_mem_found {f : Found} (h : f ∈ found u cfg host) :
    f.dir ∈ scanDirs u cfg host ∧ entryFor u cfg host f.dir f.name = some f.entry := by
  obtain ⟨d, hd, hf⟩ := List.mem_flatMap.mp h
  split at hf
  · exact absurd hf (by simp)
  · obtain ⟨name, -, hname⟩ := List.mem_filterMap.mp hf
    obtain ⟨entry, hentry, rfl⟩ := Option.map_eq_some_iff.mp hname
    exact ⟨hd, hentry⟩

/-! ## Encoded requests -/

/-- A byte that neither ends a request path nor is changed by decoding the request line. -/
def Visible (b : UInt8) : Prop :=
  b.toNat < 0x80 ∧ isBlank (CodePoint.ofByte b) = false ∧ b ≠ 0x3f ∧ b ≠ 0x23

instance (b : UInt8) : Decidable (Visible b) := inferInstanceAs (Decidable (_ ∧ _))

theorem visible_hexDigit : ∀ n < 16, Visible (hexDigit n) := by decide

theorem Visible.ne_newline {b : UInt8} (h : Visible b) : b ≠ 0x0a := by
  rintro rfl
  exact absurd h (by decide)

/-- A visible request path reaches `_normalised_path` as it was sent. -/
theorem requestPath_visible {raw : Bytes} (hne : raw ≠ []) (hraw : ∀ b ∈ raw, Visible b)
    (hslash : ¬ lit "//" <+: latin1 raw) : requestPath raw = some (latin1 raw) := by
  have hline : raw.takeWhile (· ≠ 0x0a) = raw :=
    List.takeWhile_eq_self_iff.mpr fun b hb => by simp [(hraw b hb).ne_newline]
  have hwords : (latin1 raw).splitOnP isBlank = [latin1 raw] := by
    apply List.splitOnP_eq_singleton
    intro c hc
    obtain ⟨b, hb, rfl⟩ := List.mem_map.mp hc
    exact (hraw b hb).2.1
  have hfilter : [latin1 raw].filter (fun w : Str => decide (w ≠ [])) = [latin1 raw] := by
    have hraw' : latin1 raw ≠ [] := by simpa [latin1] using hne
    simp [hraw']
  simp only [requestPath, hline, hwords, hfilter, if_neg hslash]

/-- A visible path is cut neither at a `?` nor at a `#`. -/
theorem normalisedPath_visible {raw : Bytes} (hraw : ∀ b ∈ raw, Visible b) :
    normalisedPath (latin1 raw) = (unquote (latin1 raw)).bind normaliseDecoded := by
  have hne (mark : UInt8) (hmark : ∀ b ∈ raw, b ≠ mark) :
      (latin1 raw).takeWhile (· ≠ CodePoint.ofByte mark) = latin1 raw := by
    apply List.takeWhile_eq_self_iff.mpr
    intro c hc
    obtain ⟨b, hb, rfl⟩ := List.mem_map.mp hc
    simp only [ne_eq, decide_not, Bool.not_eq_true', decide_eq_false_iff_not]
    intro heq
    refine hmark b hb ?_
    rw [← CodePoint.toByte_ofByte b, heq, CodePoint.toByte_ofByte]
  have hquestion := hne 0x3f fun b hb => (hraw b hb).2.2.1
  have hhash := hne 0x23 fun b hb => (hraw b hb).2.2.2
  have hq : CodePoint.ofByte 0x3f = .char '?' := by decide
  have hh : CodePoint.ofByte 0x23 = .char '#' := by decide
  rw [hq] at hquestion
  rw [hh] at hhash
  simp only [normalisedPath, hquestion, hhash]

/-- A percent-encoded path at the web root is resolved to itself. -/
theorem resolve_percentEncode {safe : UInt8 → Bool} {path : Str} {bytes : Bytes}
    (hpath : encode path = some bytes) (hregular : Regular path) (hnul : nul ∉ path)
    (hsafe : ∀ b ∈ bytes, safe b → Visible b) (hslash : safe 0x2f = true)
    (hescape : safe PERCENT = false ∨ hasEscape bytes = false) :
    ∃ sent, requestPath (percentEncode safe (0x2f :: bytes)) = some sent ∧
      normalisedPath sent = some path := by
  have hvisible : ∀ b ∈ percentEncode safe (0x2f :: bytes), Visible b := by
    apply forall_mem_percentEncode (by decide) visible_hexDigit
    intro b hb hs
    obtain rfl | hb := List.mem_cons.mp hb
    · decide
    · exact hsafe b hb hs
  have hrooted : encode (slash :: path) = some (0x2f :: bytes) :=
    encode_cons_eq_some.mpr ⟨[0x2f], bytes, by decide, hpath, rfl⟩
  have hescape' : safe PERCENT = false ∨ hasEscape (0x2f :: bytes) = false := by
    refine hescape.imp_right fun h => ?_
    rw [hasEscape, h]
    rfl
  have hhead : bytes.head? ≠ some 0x2f := by
    obtain ⟨c, rest, rfl, hc⟩ := hregular.head
    obtain ⟨head, tail, hutf, -, rfl⟩ := encode_cons_eq_some.mp hpath
    cases hascii : c.isAscii with
    | true =>
        rw [CodePoint.utf8_ascii hascii, Option.some.injEq] at hutf
        subst hutf
        rw [List.singleton_append, List.head?_cons, ne_eq, Option.some.injEq]
        intro hbyte
        refine hc ?_
        rw [← CodePoint.ofByte_toByte hascii, hbyte]
        decide
    | false =>
        cases head with
        | nil => exact absurd rfl (CodePoint.utf8_ne_nil hutf)
        | cons b head =>
            have hb := CodePoint.le_of_mem_utf8 hascii hutf b List.mem_cons_self
            rw [List.cons_append, List.head?_cons, ne_eq, Option.some.injEq]
            rintro rfl
            exact absurd hb (by decide)
  have hdouble : ¬ lit "//" <+: latin1 (percentEncode safe (0x2f :: bytes)) := by
    rw [percentEncode_cons, hslash, if_pos rfl]
    rintro ⟨tail, htail⟩
    have hsecond : (percentEncode safe bytes).head? = some 0x2f := by
      have hget := congrArg (fun l : Str => (l.tail.head?).map CodePoint.toByte) htail
      cases hp : percentEncode safe bytes with
      | nil =>
          rw [hp] at hget
          exact absurd hget (by simp [lit, latin1])
      | cons b rest =>
          rw [hp] at hget
          simp only [latin1, List.singleton_append, List.map_cons, List.tail_cons,
            List.head?_cons, Option.map_some, CodePoint.toByte_ofByte] at hget
          exact hget.symm
    exact hhead (head_percentEncode (by decide) hsecond)
  have hne : percentEncode safe (0x2f :: bytes) ≠ [] := by
    rw [percentEncode_cons, hslash]
    simp
  refine ⟨_, requestPath_visible hne hvisible hdouble, ?_⟩
  rw [normalisedPath_visible hvisible,
    unquote_percentEncode hrooted hescape' fun b hb => (hvisible b hb).1, Option.bind_some]
  have hnul' : nul ∉ slash :: path := by
    rw [List.mem_cons]
    rintro (h | h)
    · exact absurd h (by decide)
    · exact hnul h
  rw [normaliseDecoded, if_neg hnul', hregular.normpath_slash, lstripSlash,
    List.dropWhile_cons_of_pos (by simp)]
  exact congrArg some hregular.lstripSlash

/-! ## Concrete folders -/

/-- Letter case of ASCII only. -/
def asciiCasing : Casing where
  lower _ c _ := if c = slash then [] else [c]
  digit _ := false
  slash_notMem _ c _ := by
    split
    · simp
    · rename_i h
      simpa using Ne.symm h

/-- A folder with some files in it and no directories. -/
def rootOnly (names : List FileName) : Host where
  listdir p := if p = lit "/srv" then some names else none
  realDirs _ := none
  isdir _ := false
  isfile _ := true
  getsize _ := some 2048
  compressedInfo _ := none
  realpath p := p
  diskCsv := none

end Ps2Servers.Http
