import Ps2Servers.Lib.Effects
import Ps2Servers.WebUi.Listing

/-!
# Saving and loading a configuration

What is saved is what is loaded, field by field: a value survives the listing unless a quote is
lost in it, and an empty text survives where it is the default.
-/

namespace Ps2Servers.WebUi

open Strconv (itoa)
open Effects (bind_eq_ok forM_eq_ok)

variable {F : Type} {fl : Floats F}

/-! ## Accepted configurations -/

/-- The texts of an accepted configuration. -/
theorem texts_of_validate {cfg : EdgeConfig F} (h : validateConfig fl cfg = .ok ()) :
    (∀ field ∈ strFields cfg, field.2.any isControl = false) ∧
      cfg.udpfs.protocol ∈ [ascii "auto", ascii "standard", ascii "modulo"] ∧
      ∀ format ∈ [cfg.udpfs.logFormat, cfg.smb.logFormat, cfg.udpbd.logFormat],
        format ∈ [ascii "text", ascii "json"] := by
  unfold validateConfig at h
  obtain ⟨⟨⟩, hstr, h⟩ := bind_eq_ok.mp h
  obtain ⟨⟨⟩, -, h⟩ := bind_eq_ok.mp h
  obtain ⟨⟨⟩, -, h⟩ := bind_eq_ok.mp h
  obtain ⟨⟨⟩, hprotocol, h⟩ := bind_eq_ok.mp h
  obtain ⟨⟨⟩, hformats, -⟩ := bind_eq_ok.mp h
  have honeOf : ∀ {field : String} {value : Bytes} {allowed : List Bytes},
      oneOf field value allowed = .ok () → value ∈ allowed := by
    intro field value allowed hone
    unfold oneOf at hone
    split at hone
    · rename_i hcontains
      exact List.contains_iff_mem.mp hcontains
    · cases hone
  refine ⟨?_, honeOf hprotocol, ?_⟩
  · intro field hfield
    have hcontrol := forM_eq_ok hstr field hfield
    dsimp only at hcontrol
    unfold noControlChars at hcontrol
    split at hcontrol
    · cases hcontrol
    · exact Bool.eq_false_iff.mpr ‹_›
  · have hall := forM_eq_ok hformats
    simp only [List.mem_cons, List.not_mem_nil, or_false, forall_eq_or_imp, forall_eq] at hall ⊢
    exact ⟨List.mem_pair.mp (honeOf hall.1), List.mem_pair.mp (honeOf hall.2.1),
      List.mem_pair.mp (honeOf hall.2.2)⟩

/-- The options that hold the free texts. -/
def FREE : List UciOption :=
  [.main .root, .main .bind, .main .peerTimeout, .main .blockDevice, .main .metricsPeriod,
    .smb .path, .smb .bind, .udpbd .path, .udpbd .bind, .webui .bind]

theorem strFields_values (cfg : EdgeConfig F) :
    (strFields cfg).map (fun field => Value.string field.2) = FREE.map cfg.get := rfl

theorem get_of_free {o : UciOption} (ho : o ∈ FREE) (cfg : EdgeConfig F) :
    ∃ field ∈ strFields cfg, cfg.get o = .string field.2 := by
  have hmem : cfg.get o ∈ FREE.map cfg.get := List.mem_map_of_mem ho
  rw [← strFields_values] at hmem
  obtain ⟨field, hfield, heq⟩ := List.mem_map.mp hmem
  exact ⟨field, hfield, heq.symm⟩

/-- A text that comes back as it was: it is not empty and no byte of it is a quote or ends a line. -/
def Sound (text : Bytes) : Prop := text ≠ [] ∧ 0x0a ∉ text ∧ 0x22 ∉ text ∧ 0x27 ∉ text

theorem sound_bool (v : Bool) : Sound (if v then ascii "1" else ascii "0") := by
  cases v <;> exact ⟨by decide, by decide, by decide, by decide⟩

theorem sound_int (n : Int64) : Sound (itoa n) := by
  have hdigits : ∀ b ∈ [0x0a, 0x22, 0x27], b ≠ 0x2d ∧ Strconv.isDigit b = false := by
    decide +kernel
  have hplain : ∀ b ∈ [0x0a, 0x22, 0x27], b ∉ itoa n := by
    intro b hb hmem
    rcases Strconv.mem_itoa hmem with hminus | hdigit
    · exact (hdigits b hb).1 hminus
    · exact Bool.false_ne_true ((hdigits b hb).2.symm.trans hdigit)
  exact ⟨Strconv.itoa_ne_nil n, hplain _ (by decide), hplain _ (by decide), hplain _ (by decide)⟩

theorem sound_float (v : F) : Sound (fl.formatFloat v) := by
  have hformat : ∀ b ∈ [0x0a, 0x22, 0x27], b ∉ ascii "+-.0123456789INaefn" := by
    decide +kernel
  have hplain : ∀ b ∈ [0x0a, 0x22, 0x27], b ∉ fl.formatFloat v :=
    fun b hb hmem => hformat b hb (fl.mem_format v b hmem)
  exact ⟨fl.format_ne_nil v, hplain _ (by decide), hplain _ (by decide), hplain _ (by decide)⟩

/-- Every option but the free texts has a text that comes back as it was. -/
theorem sound_of_not_free {cfg : EdgeConfig F} (h : validateConfig fl cfg = .ok ())
    {o : UciOption} (ho : o ∉ FREE) : Sound ((cfg.get o).text fl) := by
  obtain ⟨-, hprotocol, hformats⟩ := texts_of_validate h
  have hknown : ∀ text ∈ [ascii "auto", ascii "standard", ascii "modulo", ascii "text",
      ascii "json"], Sound text := by
    unfold Sound
    decide +kernel
  have hformat : ∀ format ∈ [cfg.udpfs.logFormat, cfg.smb.logFormat, cfg.udpbd.logFormat],
      Sound format :=
    fun format hmem => hknown format (List.mem_append_right [ascii "auto", ascii "standard",
      ascii "modulo"] (hformats format hmem))
  cases o with
  | main o =>
      cases o with
      | protocol =>
          exact hknown _ (List.mem_append_left [ascii "text", ascii "json"] hprotocol)
      | logFormat => exact hformat _ (.head _)
      | txDelayMs => exact sound_float _
      | _ => first | exact sound_bool _ | exact sound_int _ | exact absurd (by decide) ho
  | smb o =>
      cases o with
      | logFormat => exact hformat _ (.tail _ (.head _))
      | _ => first | exact sound_bool _ | exact sound_int _ | exact absurd (by decide) ho
  | udpbd o =>
      cases o with
      | logFormat => exact hformat _ (.tail _ (.tail _ (.head _)))
      | _ => first | exact sound_bool _ | exact sound_int _ | exact absurd (by decide) ho
  | webui o =>
      cases o with
      | _ => first | exact sound_bool _ | exact sound_int _ | exact absurd (by decide) ho

theorem Sound.unquoted {text : Bytes} (h : Sound text) : Unquoted text :=
  ⟨h.2.2.2, fun hb => h.2.2.1 (List.mem_of_mem_head? hb), fun hb => h.2.2.1 (List.mem_of_getLast? hb)⟩

/-- No text of an accepted configuration has a line break. -/
theorem oneLine_of_validate {cfg : EdgeConfig F} (h : validateConfig fl cfg = .ok ())
    (o : UciOption) : 0x0a ∉ (cfg.get o).text fl := by
  by_cases ho : o ∈ FREE
  · obtain ⟨field, hfield, heq⟩ := get_of_free ho cfg
    rw [heq]
    intro hmem
    have hcontrol := List.any_eq_false.mp ((texts_of_validate h).1 field hfield) _ hmem
    exact hcontrol (by decide)
  · exact (sound_of_not_free h ho).2.1

/-! ## The store after a save -/

theorem lookup_set_self (s : Options) (key value : Bytes) :
    (s.set key value).entries.lookup key = if value = [] then none else some value := by
  unfold Options.set
  split
  · exact Tables.lookup_erase_self _ _
  · exact Tables.lookup_assign_self _ _ _

theorem lookup_set_of_ne {key other : Bytes} (h : other ≠ key) (s : Options) (value : Bytes) :
    (s.set key value).entries.lookup other = s.entries.lookup other := by
  unfold Options.set
  split
  · exact Tables.lookup_erase_of_ne h _
  · exact Tables.lookup_assign_of_ne h _ _

/-- The commands set their options and no others. -/
theorem lookup_setAll {refused : Bytes → Bool} {commands : List (Bytes × Bytes)} {s t : Options}
    (h : setAll refused commands s = .ok t) (hnodup : (commands.map Prod.fst).Nodup) :
    (∀ command ∈ commands, t.entries.lookup command.1 =
      if command.2 = [] then none else some command.2) ∧
    ∀ key ∉ commands.map Prod.fst, t.entries.lookup key = s.entries.lookup key := by
  induction commands generalizing s with
  | nil =>
      cases h
      exact ⟨fun command hmem => absurd hmem List.not_mem_nil, fun _ _ => rfl⟩
  | cons command rest ih =>
      obtain ⟨key, value⟩ := command
      rw [List.map_cons, List.nodup_cons] at hnodup
      unfold setAll at h
      split at h
      · cases h
      · obtain ⟨hset, hkeep⟩ := ih h hnodup.2
        constructor
        · intro command hmem
          rcases List.mem_cons.mp hmem with rfl | hmem
          · rw [hkeep _ hnodup.1]
            exact lookup_set_self s key value
          · exact hset command hmem
        · intro other hother
          rw [List.map_cons, List.mem_cons, not_or] at hother
          rw [hkeep other hother.2, lookup_set_of_ne hother.1]

/-- The commands of a save. -/
def commands (fl : Floats F) (cfg : EdgeConfig F) : List (Bytes × Bytes) :=
  OPTIONS.map fun o => (o.key, (cfg.get o).text fl)

theorem keys_commands (cfg : EdgeConfig F) :
    (commands fl cfg).map Prod.fst = OPTIONS.map UciOption.key := rfl

theorem nodup_commands (cfg : EdgeConfig F) : ((commands fl cfg).map Prod.fst).Nodup := by
  rw [keys_commands]
  exact List.Nodup.map (fun _ _ => key_injective) (by decide +kernel)

/-- A save that succeeds stores what was accepted. -/
theorem save_ok {cfg : EdgeConfig F} {refused : Bytes → Bool} {commits : Bool} {s t : Uci}
    (h : save fl cfg refused commits s = (.ok (), t)) :
    validateConfig fl cfg = .ok () ∧ setAll refused (commands fl cfg) s.staged = .ok t.staged := by
  unfold save at h
  split at h
  · cases h
  · rename_i hvalid
    refine ⟨hvalid, ?_⟩
    split at h
    · cases h
    · rename_i staged hset
      split at h
      · cases h
        exact hset
      · cases h

theorem save_of_setAll {cfg : EdgeConfig F} {refused : Bytes → Bool} {s : Uci} {t : Options}
    (hvalid : validateConfig fl cfg = .ok ())
    (h : setAll refused (commands fl cfg) s.staged = .ok t) :
    save fl cfg refused true s = (.ok (), ⟨t, t⟩) := by
  unfold commands at h
  unfold save
  rw [hvalid]
  dsimp only
  rw [h]
  rfl

theorem lookup_save {cfg : EdgeConfig F} {refused : Bytes → Bool} {s t : Options}
    (h : setAll refused (commands fl cfg) s = .ok t) (o : UciOption) :
    t.entries.lookup o.key =
      if (cfg.get o).text fl = [] then none else some ((cfg.get o).text fl) :=
  (lookup_setAll h (nodup_commands cfg)).1 (o.key, (cfg.get o).text fl)
    (List.mem_map_of_mem (mem_OPTIONS o))

/-- The other options of the package stay as they are. -/
theorem quiet_save {cfg : EdgeConfig F} {refused : Bytes → Bool} {s t : Options}
    (h : setAll refused (commands fl cfg) s = .ok t) (hquiet : s.Quiet) : t.Quiet := by
  intro entry hentry hother
  have hkey : entry.1 ∉ (commands fl cfg).map Prod.fst := by
    rw [keys_commands]
    intro hmem
    obtain ⟨o, -, ho⟩ := List.mem_map.mp hmem
    exact hother o ho.symm
  have hlookup := Tables.lookup_of_mem t.nodup hentry
  rw [(lookup_setAll h (nodup_commands cfg)).2 _ hkey] at hlookup
  exact hquiet entry (Tables.mem_of_lookup hlookup) hother

theorem oneLine_save {cfg : EdgeConfig F} {refused : Bytes → Bool} {s t : Options}
    (hvalid : validateConfig fl cfg = .ok ()) (h : setAll refused (commands fl cfg) s = .ok t) :
    t.OneLine := by
  intro o value hmem
  have hlookup := Tables.lookup_of_mem t.nodup hmem
  rw [lookup_save h] at hlookup
  split at hlookup
  · cases hlookup
  · rw [← Option.some.inj hlookup]
    exact oneLine_of_validate hvalid o

/-! ## The round trip -/

/-- The text comes back, where `default` stands for a text that is not there. -/
def Survives (default text : Bytes) : Prop := (text = [] → default = []) ∧ Unquoted text

instance (default text : Bytes) : Decidable (Survives default text) :=
  inferInstanceAs (Decidable ((_ → _) ∧ _))

/-- Every free text comes back. -/
def Storable (fl : Floats F) (cfg : EdgeConfig F) : Prop :=
  ∀ o ∈ FREE, Survives (((defaultConfig fl).get o).text fl) ((cfg.get o).text fl)

/-- What an option is read as after a save. -/
theorem get_load_save {cfg : EdgeConfig F} {refused : Bytes → Bool} {s t : Options}
    (hvalid : validateConfig fl cfg = .ok ()) (hquiet : s.Quiet)
    (h : setAll refused (commands fl cfg) s = .ok t) (o : UciOption) :
    ((cfg.get o).text fl = [] →
      (t.entries.foldl (loadEntry fl) (defaultConfig fl)).get o = (defaultConfig fl).get o) ∧
    ((cfg.get o).text fl ≠ [] → ∃ d : EdgeConfig F,
      (t.entries.foldl (loadEntry fl) (defaultConfig fl)).get o =
        (d.load fl (trimQuotes (quote ((cfg.get o).text fl))) o).get o) := by
  have hlookup := lookup_save h o
  constructor
  · intro hnil
    rw [if_pos hnil] at hlookup
    apply get_load_of_not_mem (quiet_save h hquiet) (oneLine_save hvalid h)
    intro hmem
    have hsome := Tables.lookup_isSome.mpr hmem
    rw [hlookup] at hsome
    cases hsome
  · intro hne
    rw [if_neg hne] at hlookup
    exact get_load_of_mem (quiet_save h hquiet) (oneLine_save hvalid h)
      (Tables.mem_of_lookup hlookup) _

theorem text_of_free (fl : Floats F) {o : UciOption} (ho : o ∈ FREE) (cfg : EdgeConfig F) :
    cfg.get o = .string ((cfg.get o).text fl) := by
  obtain ⟨field, -, heq⟩ := get_of_free ho cfg
  rw [heq]
  rfl

theorem load_free {o : UciOption} (ho : o ∈ FREE) (c : EdgeConfig F) (val : Bytes) :
    (c.load fl val o).get o = .string val := by
  simp only [FREE, List.mem_cons, List.not_mem_nil, or_false] at ho
  rcases ho with rfl | rfl | rfl | rfl | rfl | rfl | rfl | rfl | rfl | rfl <;> rfl

/-- Loading what was saved gives the configuration back when every free text survives, and only
then. -/
theorem load_save_iff {cfg : EdgeConfig F} {refused : Bytes → Bool} {s t : Options}
    (hvalid : validateConfig fl cfg = .ok ()) (hquiet : s.Quiet)
    (h : setAll refused (commands fl cfg) s = .ok t) :
    load fl (.ok t.show) = .ok cfg ↔ Storable fl cfg := by
  have hget := get_load_save hvalid hquiet h
  rw [load_show, Except.ok.injEq]
  constructor
  · intro heq o ho
    obtain ⟨hnil, hne⟩ := hget o
    rw [heq] at hnil hne
    by_cases htext : (cfg.get o).text fl = []
    · refine ⟨fun _ => ?_, ?_⟩
      · rw [← hnil htext, htext]
      · rw [htext]
        exact ⟨List.not_mem_nil, nofun, nofun⟩
    · refine ⟨fun hnil => absurd hnil htext, (trimQuotes_quote_iff htext).mp ?_⟩
      obtain ⟨d, hd⟩ := hne htext
      rw [load_free ho, text_of_free fl ho cfg] at hd
      exact (Value.string.inj hd).symm
  · intro hstorable
    apply EdgeConfig.ext_get
    intro o
    obtain ⟨hnil, hne⟩ := hget o
    by_cases htext : (cfg.get o).text fl = []
    · have ho : o ∈ FREE := by
        by_contra ho
        exact (sound_of_not_free hvalid ho).1 htext
      rw [hnil htext, text_of_free fl ho cfg, htext,
        text_of_free fl ho (defaultConfig fl), (hstorable o ho).1 htext]
    · have hunquoted : Unquoted ((cfg.get o).text fl) := by
        by_cases ho : o ∈ FREE
        · exact (hstorable o ho).2
        · exact (sound_of_not_free hvalid ho).unquoted
      obtain ⟨d, hd⟩ := hne htext
      rw [hd, (trimQuotes_quote_iff htext).mpr hunquoted, get_load_self]

/-- Saving with success and loading gives the configuration back, whatever commands the system
refuses. -/
def RoundTrips (fl : Floats F) (s : Uci) (cfg : EdgeConfig F) : Prop :=
  ∀ (refused : Bytes → Bool) (commits : Bool) (t : Uci),
    save fl cfg refused commits s = (.ok (), t) → load fl (.ok t.staged.show) = .ok cfg

theorem setAll_allowed (commands : List (Bytes × Bytes)) (s : Options) :
    ∃ t, setAll (fun _ => false) commands s = .ok t := by
  induction commands generalizing s with
  | nil => exact ⟨s, rfl⟩
  | cons command rest ih => exact ih (s.set command.1 command.2)

/-- An accepted configuration comes back, and one that was loaded stays as it is, when the free
texts survive and not otherwise. -/
theorem round_trip_iff (fl : Floats F) (s : Uci) (hquiet : s.staged.Quiet) :
    (∀ cfg, validateConfig fl cfg = .ok () → (RoundTrips fl s cfg ↔ Storable fl cfg)) ∧
      ∀ cfg, load fl (.ok s.staged.show) = .ok cfg →
        (RoundTrips fl s cfg ↔ (validateConfig fl cfg = .ok () → Storable fl cfg)) := by
  have hmain : ∀ cfg, validateConfig fl cfg = .ok () →
      (RoundTrips fl s cfg ↔ Storable fl cfg) := by
    intro cfg hvalid
    constructor
    · intro h
      obtain ⟨t, ht⟩ := setAll_allowed (commands fl cfg) s.staged
      exact (load_save_iff hvalid hquiet ht).mp
        (h (fun _ => false) true ⟨t, t⟩ (save_of_setAll hvalid ht))
    · intro hstorable refused commits t hsave
      exact (load_save_iff hvalid hquiet (save_ok hsave).2).mpr hstorable
  refine ⟨hmain, fun cfg _ => ?_⟩
  constructor
  · exact fun h hvalid => (hmain cfg hvalid).mp h
  · intro h refused commits t hsave
    have hvalid := (save_ok hsave).1
    exact (hmain cfg hvalid).mpr (h hvalid) refused commits t hsave

/-! Configurations with whole delays, stored where nothing was stored before. -/

theorem mem_of_isDigit {b : UInt8} (h : Strconv.isDigit b = true) :
    b ∈ ascii "+-.0123456789INaefn" := by
  have hall : ∀ n < 0x3a, 0x30 ≤ n → UInt8.ofNat n ∈ ascii "+-.0123456789INaefn" := by
    decide
  simp only [Strconv.isDigit, Bool.and_eq_true, decide_eq_true_eq, UInt8.le_iff_toNat_le] at h
  have hlt : b.toNat < 0x3a := Nat.lt_succ_of_le h.2
  rw [← UInt8.ofNat_toNat (x := b)]
  exact hall b.toNat hlt h.1

/-- Delays of whole milliseconds below a million. -/
def wholeFloats : Floats Nat where
  zero := 0
  negative _ := false
  formatFloat := Strconv.digits
  parseFloat := Strconv.unsigned
  parse_format := Strconv.unsigned_digits
  format_ne_nil := Strconv.digits_ne_nil
  mem_format _ _ hb := mem_of_isDigit (Strconv.isDigit_of_mem_digits hb)

def freshUci : Uci := ⟨⟨[], List.nodup_nil⟩, ⟨[], List.nodup_nil⟩⟩

/-- A store with an older root, and an option that the server does not know. -/
def usedOptions : Options :=
  ⟨[(UciOption.key (.main .root), ascii "/mnt/old"), (ascii "ps2servers-edge.main.notes", ascii "it's")],
    by decide +kernel⟩

theorem quiet_usedOptions : usedOptions.Quiet := by
  intro entry hentry hother
  rcases List.mem_cons.mp hentry with rfl | hentry
  · exact absurd rfl (hother (.main .root))
  · cases List.mem_singleton.mp hentry
    decide +kernel

/-- The configuration that is loaded from it. -/
def oldConfig : EdgeConfig Nat :=
  { defaultConfig wholeFloats with
    udpfs := { (defaultConfig wholeFloats).udpfs with root := ascii "/mnt/old" } }

/-- What a user makes of it. -/
def changedConfig : EdgeConfig Nat :=
  { defaultConfig wholeFloats with
    udpfs := { (defaultConfig wholeFloats).udpfs with
      root := ascii "/mnt/usb/PS2 \"games\" 2"
      peerTimeout := ascii "90m"
      txDelayMs := 250
      blockDevice := ascii "/dev/sdb"
      verbose := true }
    smb := { (defaultConfig wholeFloats).smb with
      enabled := true
      port := 4445 } }

theorem round_trip_changed :
    RoundTrips wholeFloats ⟨usedOptions, usedOptions⟩ changedConfig ∧
      RoundTrips wholeFloats ⟨usedOptions, usedOptions⟩ oldConfig := by
  have hboth := round_trip_iff wholeFloats ⟨usedOptions, usedOptions⟩ quiet_usedOptions
  have hchanged : Storable wholeFloats changedConfig := by
    unfold Storable
    decide +kernel
  have hold : Storable wholeFloats oldConfig := by
    unfold Storable
    decide +kernel
  have hload : load wholeFloats (.ok usedOptions.show) = .ok oldConfig := by
    have hsome : (load wholeFloats (.ok usedOptions.show)).toOption = some oldConfig := by
      decide +kernel
    generalize load wholeFloats (.ok usedOptions.show) = loaded at hsome
    cases loaded with
    | ok cfg => exact congrArg Except.ok (Option.some.inj hsome)
    | error e => cases hsome
  exact ⟨(hboth.1 changedConfig (by decide +kernel)).mpr hchanged,
    (hboth.2 oldConfig hload).mpr fun _ => hold⟩

/-- The configuration of someone whose games are in `/mnt/sda1/Bob's`. -/
def apostropheConfig : EdgeConfig Nat :=
  { defaultConfig wholeFloats with
    udpfs := { (defaultConfig wholeFloats).udpfs with root := ascii "/mnt/sda1/Bob's" } }

theorem apostrophe_lost :
    validateConfig wholeFloats apostropheConfig = .ok () ∧
      ¬RoundTrips wholeFloats freshUci apostropheConfig := by
  have hvalid : validateConfig wholeFloats apostropheConfig = .ok () := by decide +kernel
  refine ⟨hvalid, fun h => ?_⟩
  obtain ⟨t, ht⟩ := setAll_allowed (commands wholeFloats apostropheConfig) freshUci.staged
  have hstorable := (load_save_iff hvalid (fun _ h => absurd h List.not_mem_nil) ht).mp
    (h (fun _ => false) true ⟨t, t⟩ (save_of_setAll hvalid ht))
  have hroot := (hstorable (.main .root) (by decide)).2.1
  exact hroot (by decide +kernel)

end Ps2Servers.WebUi
