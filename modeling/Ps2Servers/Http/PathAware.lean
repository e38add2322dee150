import Ps2Servers.Http.Entries
import Ps2Servers.Lib.Tables

/-!
# The path-aware game list

RiptOPL reads a quoted row of four fields for every game and asks for the path of
a row, percent-encoded. Its documented rules are written down here as a parser of
their own. The list that the server generates parses to the entries the server
retains, a retained entry is answered from its own file, and nothing else is
answered with a game: leading segments of a request path are dropped, since the
base path of the client is not known to the server, and what is left has to be
the path of a retained entry up to letter case.
-/

namespace Ps2Servers.Http

open Text

variable (u : Casing) (cfg : Config) (host : Host)

/-! ## RiptOPL's rules -/

/-- What RiptOPL keeps of a row. -/
structure CatalogRow where
  startup : Str
  title : Str
  media : Media
  path : Str
  deriving DecidableEq, Repr

def comma : CodePoint := .char ','

/-- A quoted field after its opening quote, and what follows the closing one. A doubled quote
stands for itself. -/
def quotedField : Str → Option (Str × Str)
  | [] => none
  | [c] => if c = quote then some ([], []) else none
  | c :: d :: rest =>
      if c = quote then
        if d = quote then (quotedField rest).map fun p => (quote :: p.1, p.2)
        else some ([], d :: rest)
      else (quotedField (d :: rest)).map fun p => (c :: p.1, p.2)

/-- A field, and the rest of the line if a comma follows. -/
def lineField (line : Str) : Option (Str × Option Str) :=
  if line.head? = some quote then
    match quotedField line.tail with
    | some (value, []) => some (value, none)
    | some (value, c :: rest) => if c = comma then some (value, some rest) else none
    | none => none
  else
    match line.dropWhile (· ≠ comma) with
    | [] => some (line, none)
    | _ :: rest => some (line.takeWhile (· ≠ comma), some rest)

def mediaOf (text : Str) : Option Media :=
  if text = lit "CD" then some .cd else if text = lit "DVD" then some .dvd else none

/-- A field that is neither empty nor too long and has no control character. -/
def acceptsField (value : Str) (limit : Nat) : Bool :=
  value ≠ [] && !value.any isControl &&
    match encode value with
    | none => false
    | some bytes => bytes.length ≤ limit

/-- A relative path of ordinary segments that ends in `.iso` or `.zso`. -/
def acceptsPath (path : Str) : Bool :=
  let ending := (path.drop (path.length - 4)).map CodePoint.asciiLower
  decide (Regular path) && decide (¬ lit "://" <:+: path) && backslash ∉ path &&
    4 < path.length && (ending = lit ".iso" || ending = lit ".zso")

/-- A line, with its fields trimmed of blanks and tabs. -/
def catalogLine (line : Str) : Option CatalogRow := do
  let (startup, some rest) ← lineField line | none
  let (title, some rest) ← lineField rest | none
  let (media, some rest) ← lineField rest | none
  let (path, none) ← lineField rest | none
  let media ← mediaOf (strip BLANKS media)
  let row : CatalogRow := ⟨strip BLANKS startup, strip BLANKS title, media, strip BLANKS path⟩
  if acceptsField row.startup RIPTOPL_STARTUP_MAX && acceptsField row.title RIPTOPL_TITLE_MAX &&
      acceptsField row.path RIPTOPL_PATH_MAX && acceptsPath row.path then
    some row
  else none

/-- A line without a carriage return at its end. -/
def chomp (line : Str) : Str :=
  if line.getLast? = some (.char '\r') then line.dropLast else line

/-- The lines that carry a row: not blank and no comment. -/
def carriesRow (line : Str) : Bool :=
  let text := strip BLANKS line
  text ≠ [] && text.head? ≠ some (.char '#')

/-- Only the first row of a STARTUP counts. -/
def firstStartups (rows : List CatalogRow) : List CatalogRow :=
  rows.foldl (fun kept row =>
    if kept.any (fun r => r.startup = row.startup) then kept else kept ++ [row]) []

/-- The rows of a list. One that exceeds a limit is refused whole. -/
def parseCatalog (csv : Bytes) : Option (List CatalogRow) :=
  if RIPTOPL_CATALOG_BYTES_MAX < csv.length then none
  else
    match decode csv with
    | none => none
    | some text =>
        let lines := (text.splitOn newline).map chomp
        let rows := firstStartups ((lines.filter carriesRow).filterMap catalogLine)
        if RIPTOPL_CATALOG_ROWS_MAX < rows.length then none else some rows

/-- The row of an entry. -/
def GameEntry.catalogRow (e : GameEntry) : CatalogRow := ⟨e.startup, e.title, e.media, e.relPath⟩

/-! ## Reading back a row -/

/-- The text between the quotes of `_csv_quote`. -/
def doubled (text : Str) : Str := text.flatMap fun c => if c = quote then [quote, quote] else [c]

theorem quotedField_doubled (text : Str) {rest : Str} (hrest : rest.head? ≠ some quote) :
    quotedField (doubled text ++ quote :: rest) = some (text, rest) := by
  induction text with
  | nil =>
      cases rest with
      | nil => rfl
      | cons d rest =>
          have hd : d ≠ quote := by simpa using hrest
          simp [doubled, quotedField, hd]
  | cons c text ih =>
      have hcons : doubled (c :: text) = (if c = quote then [quote, quote] else [c]) ++
          doubled text := rfl
      by_cases hc : c = quote
      · rw [hcons, if_pos hc, List.append_assoc, List.cons_append, List.cons_append,
          List.nil_append, quotedField, if_pos rfl, if_pos rfl, ih, hc]
        rfl
      · rw [hcons, if_neg hc, List.append_assoc, List.singleton_append]
        cases htail : doubled text ++ quote :: rest with
        | nil => simp at htail
        | cons d tail =>
            rw [quotedField, if_neg hc, ← htail, ih]
            rfl

theorem csvQuote_eq (text : Str) : csvQuote text = quote :: (doubled text ++ [quote]) := rfl

/-- A quoted field is read back, whatever is in it. -/
theorem lineField_csvQuote (text rest : Str) :
    lineField (csvQuote text ++ comma :: rest) = some (text, some rest) := by
  have hquoted : quotedField (doubled text ++ quote :: comma :: rest) =
      some (text, comma :: rest) := quotedField_doubled text (by simp [comma, quote])
  rw [csvQuote_eq, List.cons_append, List.append_assoc, List.singleton_append, lineField]
  simp only [List.head?_cons, if_true, List.tail_cons, hquoted]

theorem lineField_csvQuote_last (text : Str) : lineField (csvQuote text) = some (text, none) := by
  have hquoted : quotedField (doubled text ++ [quote]) = some (text, []) :=
    quotedField_doubled text (by simp)
  rw [csvQuote_eq, lineField]
  simp only [List.head?_cons, if_true, List.tail_cons, hquoted]

theorem lineField_media (media : Media) (rest : Str) :
    lineField (media.text ++ comma :: rest) = some (media.text, some rest) := by
  cases media <;> rfl

theorem mediaOf_text (media : Media) : mediaOf (strip BLANKS media.text) = some media := by
  cases media <;> decide

/-! ## Accepted rows -/

/-- A field that the server finds no fault with. -/
theorem fieldProblem_eq_none {field : Field} {value : Str} {limit : Nat}
    (h : fieldProblem field value limit = none) :
    strip BLANKS value = value ∧ acceptsField value limit ∧ value.any isControl = false ∧
      (encode value).isSome := by
  unfold fieldProblem at h
  split_ifs at h with hstrip hempty hcontrol
  cases hbytes : encode value with
  | none => simp [hbytes] at h
  | some bytes =>
      have hlimit : bytes.length ≤ limit := by
        rw [hbytes] at h
        simpa using h
      refine ⟨(not_not.mp hstrip).symm, ?_, by simpa using hcontrol, rfl⟩
      simp [acceptsField, hempty, hcontrol, hbytes, hlimit]

/-- What the checks of `riptopl_row_problem` come to. -/
structure Accepted (e : GameEntry) : Prop where
  startup : fieldProblem .startup e.startup RIPTOPL_STARTUP_MAX = none
  title : fieldProblem .title e.title RIPTOPL_TITLE_MAX = none
  path : fieldProblem .path e.relPath RIPTOPL_PATH_MAX = none
  url : ¬ lit "://" <:+: e.relPath
  backslash : Http.backslash ∉ e.relPath
  regular : Regular e.relPath
  long : 4 < e.relPath.length

theorem regular_of_segmentProblem {path : Str}
    (h : segmentProblem (path.splitOn slash) = none) : Regular path := by
  intro segment hsegment
  have hnone := List.findSome?_eq_none_iff.mp h segment hsegment
  split_ifs at hnone with hempty hparent
  exact ⟨fun h => hempty (Or.inl h), fun h => hempty (Or.inr h), hparent⟩

theorem accepted_of_rowProblem {e : GameEntry}
    (h : riptoplRowProblem u e.startup e.title e.relPath = none) : Accepted e := by
  unfold riptoplRowProblem at h
  simp only [Option.or_eq_none_iff] at h
  obtain ⟨hstartup, htitle, hpath, hrest⟩ := h
  split_ifs at hrest with hurl habsolute hback hext hsize
  · simp at hrest
  · simp at hrest
  · rw [Option.or_none] at hrest
    refine ⟨hstartup, htitle, hpath, hurl, hback, regular_of_segmentProblem hrest, ?_⟩
    exact Nat.lt_of_not_le fun hle => hext (Or.inr hle)

theorem Accepted.catalogLine {e : GameEntry} (h : Accepted e)
    (hext : lit ".iso" <:+ e.relPath ∨ lit ".zso" <:+ e.relPath) :
    catalogLine e.riptoplCsvLine = some e.catalogRow := by
  obtain ⟨hs, hsok, -⟩ := fieldProblem_eq_none h.startup
  obtain ⟨ht, htok, -⟩ := fieldProblem_eq_none h.title
  obtain ⟨hp, hpok, -⟩ := fieldProblem_eq_none h.path
  have hcomma : lit "," = [comma] := rfl
  have hending (ext : Str) (hlen : ext.length = 4) (hsuffix : ext <:+ e.relPath) :
      e.relPath.drop (e.relPath.length - 4) = ext := by
    rw [← hlen]
    exact (List.suffix_iff_eq_drop.mp hsuffix).symm
  have hpath : acceptsPath e.relPath := by
    have hcase : ((e.relPath.drop (e.relPath.length - 4)).map CodePoint.asciiLower = lit ".iso") ∨
        ((e.relPath.drop (e.relPath.length - 4)).map CodePoint.asciiLower = lit ".zso") := by
      refine hext.imp (fun h => ?_) fun h => ?_
      · rw [hending _ (by decide) h]
        decide
      · rw [hending _ (by decide) h]
        decide
    simp only [acceptsPath, h.regular, h.url, h.backslash, h.long, decide_true, not_false_eq_true,
      Bool.and_self, Bool.true_and, Bool.or_eq_true, decide_eq_true_eq]
    exact hcase
  rw [GameEntry.riptoplCsvLine, hcomma]
  simp only [List.append_assoc, List.cons_append, List.nil_append]
  simp only [Http.catalogLine, lineField_csvQuote, lineField_csvQuote_last, lineField_media,
    mediaOf_text, Option.bind_eq_bind, Option.bind_some, hs, ht, hp, hsok, htok, hpok, hpath,
    Bool.and_self, if_true]
  rfl

/-! ## The rows -/

/-- A row as text. -/
def GameEntry.riptoplRow (e : GameEntry) : Str := e.riptoplCsvLine ++ [newline]

theorem mem_csvQuote {text : Str} {c : CodePoint} (h : c ∈ csvQuote text) :
    c = quote ∨ c ∈ text := by
  simp only [csvQuote, List.mem_append, List.mem_singleton, List.mem_flatMap] at h
  rcases h with (h | ⟨d, hd, h⟩) | h
  · exact Or.inl h
  · split at h
    · simp at h
      exact Or.inl h
    · rw [List.mem_singleton.mp h]
      exact Or.inr hd
  · exact Or.inl h

/-- The characters of a row are those of its fields, and separators. -/
theorem mem_riptoplCsvLine {e : GameEntry} {c : CodePoint} (h : c ∈ e.riptoplCsvLine) :
    c ∈ e.startup ∨ c ∈ e.title ∨ c ∈ e.relPath ∨ c ∈ lit "\",CDV" := by
  have hmedia (h : c ∈ e.media.text) : c ∈ lit "\",CDV" := by
    revert h
    cases e.media <;> simp [Media.text, lit] <;> tauto
  simp only [GameEntry.riptoplCsvLine, List.mem_append] at h
  rcases h with (((((h | h) | h) | h) | h) | h) | h
  · obtain rfl | h := mem_csvQuote h
    · exact Or.inr (Or.inr (Or.inr (by decide)))
    · exact Or.inl h
  · exact Or.inr (Or.inr (Or.inr (by revert h; simp [lit]; tauto)))
  · obtain rfl | h := mem_csvQuote h
    · exact Or.inr (Or.inr (Or.inr (by decide)))
    · exact Or.inr (Or.inl h)
  · exact Or.inr (Or.inr (Or.inr (by revert h; simp [lit]; tauto)))
  · exact Or.inr (Or.inr (Or.inr (hmedia h)))
  · exact Or.inr (Or.inr (Or.inr (by revert h; simp [lit]; tauto)))
  · obtain rfl | h := mem_csvQuote h
    · exact Or.inr (Or.inr (Or.inr (by decide)))
    · exact Or.inr (Or.inr (Or.inl h))

/-- What a check says of every character of an accepted row. -/
theorem Accepted.line {e : GameEntry} (h : Accepted e) {p : CodePoint → Prop}
    (hfield : ∀ {field value limit}, fieldProblem field value limit = none → ∀ c ∈ value, p c)
    (hlit : ∀ c ∈ lit "\",CDV", p c) : ∀ c ∈ e.riptoplCsvLine, p c := by
  intro c hc
  rcases mem_riptoplCsvLine hc with hc | hc | hc | hc
  · exact hfield h.startup c hc
  · exact hfield h.title c hc
  · exact hfield h.path c hc
  · exact hlit c hc

/-- The row of an accepted entry encodes. -/
theorem Accepted.encode {e : GameEntry} (h : Accepted e) : (encode e.riptoplRow).isSome := by
  have hline := h.line (p := fun c => c.utf8.isSome)
    (fun hf => encode_isSome.mp (fieldProblem_eq_none hf).2.2.2) (by decide)
  refine encode_isSome.mpr fun c hc => ?_
  obtain hc | hc := List.mem_append.mp hc
  · exact hline c hc
  · rw [List.mem_singleton.mp hc]
    decide

/-- It is one line. -/
theorem Accepted.newline {e : GameEntry} (h : Accepted e) : newline ∉ e.riptoplCsvLine := by
  have hline := h.line (p := fun c => c ≠ Http.newline) (fun hf c hc => ?_) (by decide)
  · exact fun hmem => hline _ hmem rfl
  · rintro rfl
    have hcontrol := (fieldProblem_eq_none hf).2.2.1
    rw [List.any_eq_false] at hcontrol
    exact hcontrol _ hc (by decide)

/-- What the loop of `_build_riptopl_csv` has made of the entries seen so far. -/
structure RowsOf (seen : List GameEntry) (acc : Rows) : Prop where
  retained : acc.retained.Sublist seen
  accepted : ∀ e ∈ acc.retained, Accepted e
  startups : (acc.retained.map GameEntry.startup).Nodup
  rows : acc.retained.length ≤ RIPTOPL_CATALOG_ROWS_MAX
  bytes : acc.body.length ≤ RIPTOPL_CATALOG_BYTES_MAX
  body : encode (acc.retained.flatMap GameEntry.riptoplRow) = some acc.body

/-- A row is left out or put in whole; none raises. -/
theorem RowsOf.step {seen : List GameEntry} {acc : Rows} (h : RowsOf seen acc) (e : GameEntry) :
    ∃ acc', addRiptoplRow u acc e = some acc' ∧ RowsOf (seen ++ [e]) acc' := by
  have hskip (dropped : Nat) : RowsOf (seen ++ [e]) { acc with dropped := dropped } :=
    ⟨h.retained.trans (List.sublist_append_left _ _), h.accepted, h.startups, h.rows, h.bytes,
      h.body⟩
  unfold addRiptoplRow
  split
  · exact ⟨acc, rfl, hskip acc.dropped⟩
  · rename_i hproblem
    split
    · exact ⟨acc, rfl, hskip acc.dropped⟩
    · rename_i hstartup
      have haccepted := accepted_of_rowProblem u
        (Option.isSome_eq_false_iff.mp (Bool.eq_false_iff.mpr hproblem) |> Option.isNone_iff_eq_none.mp)
      obtain ⟨line, hline⟩ := Option.isSome_iff_exists.mp haccepted.encode
      have hline' : encode (e.riptoplCsvLine ++ [newline]) = some line := hline
      rw [hline', Option.map_some]
      split
      · exact ⟨_, rfl, hskip (acc.dropped + 1)⟩
      · rename_i hfits
        obtain ⟨hrows, hbytes⟩ := not_or.mp hfits
        refine ⟨_, rfl, ?_, ?_, ?_, ?_, ?_, ?_⟩
        · exact h.retained.append (List.Sublist.refl _)
        · intro e' he'
          obtain he' | he' := List.mem_append.mp he'
          · exact h.accepted e' he'
          · rw [List.mem_singleton.mp he']
            exact haccepted
        · rw [List.map_append, List.nodup_append]
          refine ⟨h.startups, by simp, fun a ha b hb hab => ?_⟩
          rw [List.map_singleton, List.mem_singleton] at hb
          rw [hab, hb] at ha
          exact hstartup ha
        · rw [List.length_append, List.length_singleton]
          omega
        · rw [List.length_append]
          omega
        · rw [List.flatMap_append, List.flatMap_singleton]
          exact encode_append h.body hline

/-- The loop over all entries. -/
theorem rowsOf_foldlM (entries : List GameEntry) :
    ∃ rows, entries.foldlM (addRiptoplRow u) ⟨[], [], 0⟩ = some rows ∧ RowsOf entries rows := by
  induction entries using List.reverseRecOn with
  | nil =>
      exact ⟨_, rfl, List.Sublist.refl _, by simp, by simp, Nat.zero_le _, Nat.zero_le _, rfl⟩
  | append_singleton entries e ih =>
      obtain ⟨rows, hfold, hrows⟩ := ih
      obtain ⟨rows', hstep, hrows'⟩ := hrows.step u e
      refine ⟨rows', ?_, hrows'⟩
      rw [List.foldlM_append, hfold]
      simpa using hstep

/-! ## Parsing the list -/

/-- A row starts and ends with a quote. -/
theorem riptoplCsvLine_eq (e : GameEntry) :
    ∃ middle, e.riptoplCsvLine = quote :: (middle ++ [quote]) := by
  refine ⟨doubled e.startup ++ [quote] ++ lit "," ++ csvQuote e.title ++ lit "," ++ e.media.text ++
    lit "," ++ [quote] ++ doubled e.relPath, ?_⟩
  simp [GameEntry.riptoplCsvLine, csvQuote_eq]

theorem carriesRow_riptoplCsvLine (e : GameEntry) : carriesRow e.riptoplCsvLine = true := by
  obtain ⟨middle, hline⟩ := riptoplCsvLine_eq e
  have hquote : ¬ BLANKS.contains quote = true := by decide
  have hstrip : strip BLANKS (quote :: (middle ++ [quote])) = quote :: (middle ++ [quote]) := by
    have hreverse : (quote :: (middle ++ [quote])).reverse =
        quote :: (middle.reverse ++ [quote]) := by simp
    rw [strip, List.dropWhile_cons_of_neg hquote, hreverse,
      List.dropWhile_cons_of_neg hquote, ← hreverse, List.reverse_reverse]
  have hhash : quote ≠ .char '#' := by decide
  simp [carriesRow, hline, hstrip, hhash]

theorem chomp_riptoplCsvLine (e : GameEntry) : chomp e.riptoplCsvLine = e.riptoplCsvLine := by
  obtain ⟨middle, hline⟩ := riptoplCsvLine_eq e
  have hquote : quote ≠ .char '\r' := by decide
  rw [chomp, if_neg]
  rw [hline, ← List.cons_append, List.getLast?_append]
  simp [hquote]

theorem splitOn_flatMap_riptoplRow {entries : List GameEntry} (h : ∀ e ∈ entries, Accepted e) :
    (entries.flatMap GameEntry.riptoplRow).splitOn newline =
      entries.map GameEntry.riptoplCsvLine ++ [[]] := by
  induction entries with
  | nil => rfl
  | cons e entries ih =>
      have hline := (h e List.mem_cons_self).newline
      rw [List.flatMap_cons, GameEntry.riptoplRow, List.append_assoc, List.singleton_append,
        List.splitOn_append_cons_self_of_not_mem hline,
        ih fun e' he' => h e' (List.mem_cons_of_mem _ he')]
      rfl

/-- With distinct STARTUPs every row counts. -/
theorem firstStartups_of_nodup {rows : List CatalogRow}
    (h : (rows.map CatalogRow.startup).Nodup) : firstStartups rows = rows := by
  induction rows using List.reverseRecOn with
  | nil => rfl
  | append_singleton rows row ih =>
      rw [List.map_append, List.nodup_append] at h
      have hnew : ¬ rows.any (fun r => r.startup = row.startup) = true := by
        rw [List.any_eq_true]
        rintro ⟨r, hr, heq⟩
        exact h.2.2 _ (List.mem_map_of_mem hr) row.startup (by simp) (by simpa using heq)
      have hrows := ih h.1
      unfold firstStartups at hrows ⊢
      rw [List.foldl_append, hrows, List.foldl_cons, List.foldl_nil, if_neg hnew]

/-- The list parses to the entries it was made of. -/
theorem RowsOf.parseCatalog {seen : List GameEntry} {acc : Rows} (h : RowsOf seen acc)
    (hext : ∀ e ∈ acc.retained, lit ".iso" <:+ e.relPath ∨ lit ".zso" <:+ e.relPath) :
    parseCatalog acc.body = some (acc.retained.map GameEntry.catalogRow) := by
  have hlines : (acc.retained.map GameEntry.riptoplCsvLine ++ [[]]).map chomp =
      acc.retained.map GameEntry.riptoplCsvLine ++ [[]] := by
    refine (List.map_congr_left fun line hline => ?_).trans (List.map_id _)
    obtain hline | hline := List.mem_append.mp hline
    · obtain ⟨e, -, rfl⟩ := List.mem_map.mp hline
      exact chomp_riptoplCsvLine e
    · rw [List.mem_singleton.mp hline]
      rfl
  have hfilter : (acc.retained.map GameEntry.riptoplCsvLine ++ [[]]).filter carriesRow =
      acc.retained.map GameEntry.riptoplCsvLine := by
    rw [List.filter_append, List.filter_eq_self.mpr]
    · simp [carriesRow, strip]
    · intro line hline
      obtain ⟨e, -, rfl⟩ := List.mem_map.mp hline
      exact carriesRow_riptoplCsvLine e
  have hrows : (acc.retained.map GameEntry.riptoplCsvLine).filterMap catalogLine =
      acc.retained.map GameEntry.catalogRow := by
    rw [List.filterMap_map, ← List.filterMap_eq_map]
    exact List.filterMap_congr fun e he => (h.accepted e he).catalogLine (hext e he)
  have hdistinct : firstStartups (acc.retained.map GameEntry.catalogRow) =
      acc.retained.map GameEntry.catalogRow := by
    apply firstStartups_of_nodup
    rw [List.map_map]
    exact h.startups
  simp only [Http.parseCatalog, Nat.not_lt.mpr h.bytes, if_false, decode_of_encode h.body,
    splitOn_flatMap_riptoplRow h.accepted, hlines, hfilter, hrows, hdistinct, List.length_map,
    Nat.not_lt.mpr h.rows]

/-! ## Lookup -/

/-- The path of an entry that is addressed by its advertised name. -/
def EndsIn (path advertised : Str) : Prop :=
  path = advertised ∨ ∃ dir, path = dir ++ slash :: advertised

theorem EndsIn.basename {path advertised : Str} (h : EndsIn path advertised)
    (hslash : slash ∉ advertised) : basename path = advertised := by
  obtain rfl | ⟨dir, rfl⟩ := h
  · exact basename_of_notMem hslash
  · exact basename_append_slash dir hslash

theorem EndsIn.suffix {path advertised ext : Str} (h : EndsIn path advertised)
    (hext : ext <:+ advertised) : ext <:+ path := by
  obtain rfl | ⟨dir, rfl⟩ := h
  · exact hext
  · exact hext.trans ((List.suffix_cons slash advertised).trans (List.suffix_append dir _))

theorem Advertised.suffix {path name stem ext : Str} (h : Advertised name stem ext)
    (hpath : EndsIn path name) : lit ".iso" <:+ path ∨ lit ".zso" <:+ path := by
  have hext : ext <:+ name := h.eq ▸ List.suffix_append stem ext
  refine h.ext.imp (fun heq => ?_) fun heq => ?_
  · exact heq ▸ hpath.suffix hext
  · exact heq ▸ hpath.suffix hext

/-- The path of a path-aware entry ends in its advertised name. -/
theorem pathAware_of_mem_found (hcfg : cfg.profile = .riptoplPathAware) {f : Found}
    (hf : f ∈ found u cfg host) :
    ∃ advertised stem ext, Advertised advertised stem ext ∧
      EndsIn f.entry.relPath advertised := by
  obtain ⟨-, hentry⟩ := entryFor_of_mem_found u cfg host hf
  obtain ⟨advertised, ext, path, size, compressed, hadv, hpath⟩ := entryFor_spec u cfg host hentry
  rw [if_pos hcfg] at hpath
  refine ⟨advertised, _, ext, hadv, ?_⟩
  unfold pathAwareEntry at hpath
  dsimp only at hpath
  split at hpath
  · exact absurd hpath (by simp)
  · split at hpath
    · split at hpath
      · exact absurd hpath (by simp)
      · rw [← Option.some.inj hpath]
        exact Or.inl rfl
    · split at hpath
      · exact absurd hpath (by simp)
      · rw [← Option.some.inj hpath]
        exact Or.inr ⟨f.dir.relDir, by simp⟩

/-- The retained entries come from the games found, and no two have the same path. -/
theorem candidates_spec (entries : List GameEntry) :
    ((entries.foldl addCandidate []).map GameEntry.relPath).Nodup ∧
      entries.foldl addCandidate [] ⊆ entries := by
  induction entries using List.reverseRecOn with
  | nil => exact ⟨by simp, by simp⟩
  | append_singleton entries e ih =>
      rw [List.foldl_append, List.foldl_cons, List.foldl_nil, addCandidate]
      split
      · exact ⟨ih.1, fun c hc => List.mem_append_left _ (ih.2 hc)⟩
      · rename_i hnew
        refine ⟨?_, ?_⟩
        · rw [List.map_append, List.nodup_append]
          refine ⟨ih.1, by simp, fun a ha b hb hab => ?_⟩
          rw [List.map_singleton, List.mem_singleton] at hb
          rw [hab, hb] at ha
          exact hnew ha
        · intro c hc
          obtain hc | hc := List.mem_append.mp hc
          · exact List.mem_append_left _ (ih.2 hc)
          · exact List.mem_append_right _ hc

/-- A folded path leads to an entry with that path up to letter case. -/
theorem mem_foldl_addFolded {retained : List GameEntry} {p : Str × GameEntry}
    (h : p ∈ (retained.foldl (addFolded u) ([], [])).1) :
    p.2 ∈ retained ∧ p.1 = lower u p.2.relPath := by
  induction retained using List.reverseRecOn with
  | nil => simp at h
  | append_singleton retained e ih =>
      rw [List.foldl_append, List.foldl_cons, List.foldl_nil] at h
      simp only [addFolded] at h
      split at h
      · obtain ⟨hmem, hkey⟩ := ih h
        exact ⟨List.mem_append_left _ hmem, hkey⟩
      · obtain h | h := List.mem_append.mp h
        · obtain ⟨hmem, hkey⟩ := ih h
          exact ⟨List.mem_append_left _ hmem, hkey⟩
        · rw [List.mem_singleton.mp h]
          exact ⟨by simp, rfl⟩

/-- The paths under which a request may be known: its own and those left when leading segments
are dropped. -/
def pathSuffixes (name : Str) : List Str :=
  (suffixes ((lstripSlash (normpath name)).splitOn slash)).map joinSlash

/-- An index serves the retained entries only, under their paths. -/
structure IndexOf (retained : List GameEntry) (index : PathIndex) : Prop where
  exact : index.exactPaths = retained.map fun e => (e.relPath, e)
  folded : ∀ p ∈ index.pathEntries, p.2 ∈ retained ∧ p.1 = lower u p.2.relPath

/-- What is found has the path that was asked for, up to letter case. -/
theorem IndexOf.lookup_sound {retained : List GameEntry} {index : PathIndex}
    (h : IndexOf u retained index) {candidates : List (List Str)} {e : GameEntry}
    (he : PathIndex.lookup.go u index candidates = some e) :
    e ∈ retained ∧ ∃ parts ∈ candidates, lower u (joinSlash parts) = lower u e.relPath := by
  induction candidates with
  | nil => exact absurd he (by simp [PathIndex.lookup.go])
  | cons parts rest ih =>
      unfold PathIndex.lookup.go at he
      dsimp only at he
      split at he
      · rename_i e' hexact
        obtain rfl := Option.some.inj he
        have hmem := Tables.mem_of_lookup hexact
        rw [h.exact] at hmem
        obtain ⟨e'', he'', heq⟩ := List.mem_map.mp hmem
        obtain ⟨hpath, rfl⟩ := Prod.ext_iff.mp heq
        exact ⟨he'', parts, List.mem_cons_self, congrArg _ hpath.symm⟩
      · split at he
        · exact absurd he (by simp)
        · split at he
          · rename_i e' hfolded
            obtain rfl := Option.some.inj he
            obtain ⟨hmem, hkey⟩ := h.folded _ (Tables.mem_of_lookup hfolded)
            exact ⟨hmem, parts, List.mem_cons_self, hkey⟩
          · obtain ⟨hmem, parts', hparts', hkey⟩ := ih he
            exact ⟨hmem, parts', List.mem_cons_of_mem _ hparts', hkey⟩

/-- A retained path leads to its own entry. -/
theorem IndexOf.lookup_relPath {retained : List GameEntry} {index : PathIndex}
    (h : IndexOf u retained index) (hnodup : (retained.map GameEntry.relPath).Nodup)
    {e : GameEntry} (he : e ∈ retained) (hregular : Regular e.relPath) :
    index.lookup u e.relPath = some e := by
  have hexact : index.exactPaths.lookup e.relPath = some e := by
    rw [h.exact]
    apply Tables.lookup_of_mem
    · rw [List.map_map]
      exact hnodup
    · exact List.mem_map.mpr ⟨e, he, rfl⟩
  rw [PathIndex.lookup, hregular.normpath, hregular.lstripSlash]
  cases hsplit : e.relPath.splitOn slash with
  | nil => exact absurd hsplit (List.splitOn_ne_nil _ _)
  | cons part parts =>
      have hjoin : joinSlash (part :: parts) = e.relPath := by
        rw [joinSlash, ← hsplit, List.intercalate_splitOn]
      rw [suffixes, PathIndex.lookup.go]
      simp only [hjoin, hexact]

/-! ## The profile -/

theorem unreserved_visible (b : UInt8) (h : unreserved b) : Visible b := by
  have hall : ∀ n < 256, unreserved (UInt8.ofNat n) = true → Visible (UInt8.ofNat n) := by
    decide +kernel
  have hb := hall b.toNat b.toNat_lt
  rw [UInt8.ofNat_toNat] at hb
  exact hb h

/-- RiptOPL's request for a path, under the base path `/`. -/
def riptoplRequest (relPath : Str) : Bytes := 0x2f :: riptoplEncodedPath relPath

/-- The request for an accepted path is resolved to the path. -/
theorem Accepted.resolve {e : GameEntry} (h : Accepted e) :
    ∃ sent, requestPath (riptoplRequest e.relPath) = some sent ∧
      normalisedPath sent = some e.relPath := by
  obtain ⟨-, -, hcontrol, hencode⟩ := fieldProblem_eq_none h.path
  obtain ⟨bytes, hbytes⟩ := Option.isSome_iff_exists.mp hencode
  have hnul : nul ∉ e.relPath := by
    intro hmem
    rw [List.any_eq_false] at hcontrol
    exact hcontrol _ hmem (by decide)
  have hrequest : riptoplRequest e.relPath = percentEncode unreserved (0x2f :: bytes) := by
    rw [riptoplRequest, riptoplEncodedPath, encodeReplace_of_encode hbytes, percentEncode_cons,
      if_pos (by decide)]
    rfl
  rw [hrequest]
  exact resolve_percentEncode hbytes h.regular hnul (fun b _ => unreserved_visible b) (by decide)
    (Or.inl (by decide))

/-- A well-formed request other than for the list comes to a lookup. -/
theorem target_eq (index : PathIndex) {path name : Str} (hname : normalisedPath path = some name)
    (hcsv : isGamesCsv u name = false) :
    index.target u path = .ofLookup (index.lookup u name) := by
  simp only [PathIndex.target, targetOf, hname, hcsv, Bool.false_eq_true, if_false]

/-- A game is the answer to requests for its path only. -/
theorem IndexOf.target_game {retained : List GameEntry} {index : PathIndex}
    (h : IndexOf u retained index) {path : Str} {e : GameEntry}
    (htarget : index.target u path = .game e) :
    e ∈ retained ∧ ∃ name, normalisedPath path = some name ∧
      ∃ suffix ∈ pathSuffixes name, lower u suffix = lower u e.relPath := by
  rw [PathIndex.target, targetOf] at htarget
  cases hname : normalisedPath path with
  | none => simp [hname] at htarget
  | some name =>
      rw [hname] at htarget
      dsimp only at htarget
      split at htarget
      · exact absurd htarget (by simp)
      · cases hlookup : index.lookup u name with
        | none => simp [hlookup, Target.ofLookup] at htarget
        | some e' =>
            obtain rfl : e' = e := by simpa [hlookup, Target.ofLookup] using htarget
            obtain ⟨hmem, parts, hparts, hkey⟩ := h.lookup_sound u hlookup
            exact ⟨hmem, name, rfl, joinSlash parts, List.mem_map_of_mem hparts, hkey⟩

/-- **The path-aware list.** It parses to the entries the server retains, with distinct STARTUPs
and within the limits. The request for a retained path is answered from its file. A request
is answered with a game only if its path, or what is left of it without leading segments, is
the path of that game up to letter case; any other is answered 404 when it is well formed and
not a request for the list. -/
theorem path_aware_catalogue (hcfg : cfg.profile = .riptoplPathAware) :
    ∃ index retained, rebuildPathAware u cfg host = some (index, retained) ∧
      (∀ e ∈ retained, ∃ f ∈ found u cfg host, f.entry = e) ∧
      parseCatalog index.csv = some (retained.map GameEntry.catalogRow) ∧
      (retained.map GameEntry.startup).Nodup ∧
      retained.length ≤ RIPTOPL_CATALOG_ROWS_MAX ∧
      index.csv.length ≤ RIPTOPL_CATALOG_BYTES_MAX ∧
      (∀ e ∈ retained,
        (requestPath (riptoplRequest e.relPath)).map (index.target u) = some (.game e)) ∧
      (∀ path e, index.target u path = .game e →
        e ∈ retained ∧ ∃ name, normalisedPath path = some name ∧
          ∃ suffix ∈ pathSuffixes name, lower u suffix = lower u e.relPath) ∧
      ∀ path name, normalisedPath path = some name → isGamesCsv u name = false →
        (∀ suffix ∈ pathSuffixes name, ∀ e ∈ retained, lower u suffix ≠ lower u e.relPath) →
        index.target u path = .missing := by
  obtain ⟨hpaths, hsubset⟩ := candidates_spec ((found u cfg host).map Found.entry)
  obtain ⟨rows, hfold, hrows⟩ := rowsOf_foldlM u
    ((((found u cfg host).map Found.entry).foldl addCandidate []).insertionSort
      fun a b => rowLe u a b)
  have hfound : ∀ e ∈ rows.retained, ∃ f ∈ found u cfg host, f.entry = e := by
    intro e he
    have hmem := hsubset ((List.mem_insertionSort _).mp (hrows.retained.subset he))
    obtain ⟨f, hf, rfl⟩ := List.mem_map.mp hmem
    exact ⟨f, hf, rfl⟩
  have hadvertised : ∀ e ∈ rows.retained, ∃ advertised stem ext,
      Advertised advertised stem ext ∧ EndsIn e.relPath advertised := by
    intro e he
    obtain ⟨f, hf, rfl⟩ := hfound e he
    exact pathAware_of_mem_found u cfg host hcfg hf
  have hnodup : (rows.retained.map GameEntry.relPath).Nodup := by
    refine List.Nodup.sublist (hrows.retained.map _) ?_
    exact ((List.perm_insertionSort _ _).map _).nodup_iff.mpr hpaths
  let index : PathIndex :=
    { exactPaths := rows.retained.map fun e => (e.relPath, e)
      pathEntries := (rows.retained.foldl (addFolded u) ([], [])).1.filter fun p =>
        p.1 ∉ (rows.retained.foldl (addFolded u) ([], [])).2
      ambiguousPaths := (rows.retained.foldl (addFolded u) ([], [])).2
      csv := rows.body }
  have hindex : IndexOf u rows.retained index :=
    ⟨rfl, fun p hp => mem_foldl_addFolded u (List.mem_of_mem_filter hp)⟩
  refine ⟨index, rows.retained, ?_, hfound, ?_, hrows.startups, hrows.rows, hrows.bytes, ?_,
    fun path e htarget => hindex.target_game u htarget, ?_⟩
  · simp only [rebuildPathAware, buildRiptoplCsv, hfold, Option.map_some]
    rfl
  · refine hrows.parseCatalog fun e he => ?_
    obtain ⟨advertised, stem, ext, hadv, hends⟩ := hadvertised e he
    exact hadv.suffix hends
  · intro e he
    have haccepted := hrows.accepted e he
    obtain ⟨sent, hsent, hnorm⟩ := haccepted.resolve
    obtain ⟨advertised, stem, ext, hadv, hends⟩ := hadvertised e he
    have hcsv : isGamesCsv u e.relPath = false := by
      rw [isGamesCsv, hends.basename hadv.isFileName.2.1]
      exact decide_eq_false (hadv.not_gamesCsv u)
    rw [hsent, Option.map_some, target_eq u index hnorm hcsv,
      hindex.lookup_relPath u hnodup he haccepted.regular]
    rfl
  · intro path name hname hcsv hnone
    rw [target_eq u index hname hcsv]
    cases hlookup : index.lookup u name with
    | none => rfl
    | some e =>
        obtain ⟨hmem, parts, hparts, hkey⟩ := hindex.lookup_sound u hlookup
        exact absurd hkey (hnone _ (List.mem_map_of_mem hparts) e hmem)

def pathAwareConfig : Config :=
  ⟨lit "/srv", .riptoplPathAware, false, false, by decide, false, false⟩

/-- A conventional name, a name with a blank, and two whose names differ by letter case. -/
def fourImages : Host :=
  rootOnly [⟨lit "SLUS_200.01.A.iso", by decide⟩, ⟨lit "B c.iso", by decide⟩,
    ⟨lit "E.iso", by decide⟩, ⟨lit "e.iso", by decide⟩]

/-- All four are listed, and each is answered by its path as it is written. -/
theorem path_aware_fourImages :
    ∃ index retained,
      rebuildPathAware asciiCasing pathAwareConfig fourImages = some (index, retained) ∧
      retained.length = 4 ∧
      parseCatalog index.csv = some (retained.map GameEntry.catalogRow) ∧
      ∀ e ∈ retained, (requestPath (riptoplRequest e.relPath)).map (index.target asciiCasing) =
        some (.game e) := by
  obtain ⟨index, retained, hindex, -, hparse, -, -, -, hgame, -⟩ :=
    path_aware_catalogue asciiCasing pathAwareConfig fourImages rfl
  have hfour : (rebuildPathAware asciiCasing pathAwareConfig fourImages).map
      (fun p => p.2.length) = some 4 := by decide +kernel
  rw [hindex] at hfour
  exact ⟨index, retained, hindex, Option.some.inj hfour, hparse, hgame⟩

/-- `/x/a.iso` is answered with the game `a.iso`. -/
theorem not_missing_under_base :
    ¬ ∀ (u : Casing) (cfg : Config) (host : Host) (index : PathIndex)
        (retained : List GameEntry) (path : Str), cfg.profile = .riptoplPathAware →
      rebuildPathAware u cfg host = some (index, retained) →
      (∀ e ∈ retained, lower u path ≠ lower u e.relPath) →
      index.target u (slash :: path) = .missing := by
  intro h
  have htarget : (rebuildPathAware asciiCasing pathAwareConfig
      (rootOnly [⟨lit "a.iso", by decide⟩])).map
        (fun p => decide (p.1.target asciiCasing (slash :: lit "x/a.iso") = .missing)) =
          some false := by decide +kernel
  have hother : (rebuildPathAware asciiCasing pathAwareConfig
      (rootOnly [⟨lit "a.iso", by decide⟩])).map (fun p => decide (∀ e ∈ p.2,
        lower asciiCasing (lit "x/a.iso") ≠ lower asciiCasing e.relPath)) = some true := by
    decide +kernel
  cases hindex : rebuildPathAware asciiCasing pathAwareConfig
      (rootOnly [⟨lit "a.iso", by decide⟩]) with
  | none => simp [hindex] at htarget
  | some p =>
      rw [hindex, Option.map_some, Option.some.injEq] at htarget hother
      exact of_decide_eq_false htarget
        (h asciiCasing pathAwareConfig _ p.1 p.2 (lit "x/a.iso") rfl hindex
          (of_decide_eq_true hother))

end Ps2Servers.Http
