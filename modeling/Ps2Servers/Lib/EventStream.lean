import Ps2Servers.Lib.Bytes
import Mathlib.Data.List.Basic

/-!
# Server-sent events

The reader of a stream of server-sent events takes it line by line, where a CR, a LF and a CR with
a LF after it each end a line. A blank line dispatches the event that the fields before it have
built, and what the stream ends in the middle of is dropped.

## Implementation notes

The stream is kept in bytes. Decoding it as UTF-8 neither makes nor takes away a byte that the
reader looks for. The field `retry` touches no event and is passed over like an unknown one.
-/

namespace Ps2Servers.EventStream

def CR : UInt8 := 0x0d

def LF : UInt8 := 0x0a

def colon : UInt8 := 0x3a

def space : UInt8 := 0x20

structure Event where
  type : Bytes
  data : Bytes
  lastEventId : Bytes
  deriving DecidableEq, Repr

/-- `data`. -/
def dataField : Bytes := [0x64, 0x61, 0x74, 0x61]

/-- `event`. -/
def eventField : Bytes := [0x65, 0x76, 0x65, 0x6e, 0x74]

/-- `id`. -/
def idField : Bytes := [0x69, 0x64]

/-- `message`, the type of an event that names none. -/
def messageType : Bytes := [0x6d, 0x65, 0x73, 0x73, 0x61, 0x67, 0x65]

/-- The reader between two bytes: the line so far, whether the line before it was ended by a CR,
and the buffers of the event so far. -/
structure Reader where
  line : Bytes
  afterCR : Bool
  data : Bytes
  type : Bytes
  lastEventId : Bytes
  events : List Event
  deriving DecidableEq, Repr

namespace Reader

/-- The reader at the start of an event that follows `es`. -/
def idle (es : List Event) : Reader := ⟨[], false, [], [], [], es⟩

def dispatch (r : Reader) : Reader :=
  if r.data = [] then { r with type := [] }
  else
    { r with
      data := []
      type := []
      events := r.events ++
        [⟨if r.type = [] then messageType else r.type, r.data.dropLast, r.lastEventId⟩] }

/-- A line with no colon in it is a field name. One space before a value is not part of it. -/
def field (line : Bytes) : Bytes × Bytes :=
  match line.dropWhile (· != colon) with
  | [] => (line, [])
  | _ :: value =>
      (line.takeWhile (· != colon), if value.head? = some space then value.tail else value)

def process (r : Reader) (name value : Bytes) : Reader :=
  if name = dataField then { r with data := r.data ++ value ++ [LF] }
  else if name = eventField then { r with type := value }
  else if name = idField ∧ value.contains 0 = false then { r with lastEventId := value }
  else r

def endLine (r : Reader) : Reader :=
  if r.line = [] then r.dispatch
  else { r.process (field r.line).1 (field r.line).2 with line := [] }

def feed (r : Reader) (b : UInt8) : Reader :=
  if b = CR then { r.endLine with afterCR := true }
  else if b = LF then
    if r.afterCR then { r with afterCR := false } else r.endLine
  else { r with line := r.line ++ [b], afterCR := false }

end Reader

/-- The events of a stream, a byte order mark at its start left out. -/
def events (stream : Bytes) : List Event :=
  ((if [0xef, 0xbb, 0xbf].isPrefixOf stream then stream.drop 3 else stream).foldl Reader.feed
    (Reader.idle [])).events

/-- The event that one line of text is put into. -/
def frame (text : Bytes) : Bytes := dataField ++ [colon, space] ++ text ++ [LF, LF]

/-- A text without the CR at its end. -/
def chomp (text : Bytes) : Bytes := if text.getLast? = some CR then text.dropLast else text

/-- A text that ends no line before its own end. -/
def OneLine (text : Bytes) : Prop := CR ∉ chomp text ∧ LF ∉ chomp text

instance (text : Bytes) : Decidable (OneLine text) := inferInstanceAs (Decidable (_ ∧ _))

def message (text : Bytes) : Event := ⟨messageType, chomp text, []⟩

theorem chomp_of_not_mem {text : Bytes} (h : CR ∉ text) : chomp text = text :=
  if_neg fun hlast => h (List.mem_of_getLast? hlast)

theorem oneLine_of_not_mem {text : Bytes} (hcr : CR ∉ text) (hlf : LF ∉ text) : OneLine text := by
  rw [OneLine, chomp_of_not_mem hcr]
  exact ⟨hcr, hlf⟩

/-- A text is its line, with a CR after it or not. -/
theorem eq_chomp (text : Bytes) : text = chomp text ∨ text = chomp text ++ [CR] := by
  unfold chomp
  split
  · rename_i hlast
    exact .inr (List.dropLast_append_getLast? _ hlast).symm
  · exact .inl rfl

namespace Reader

theorem feed_of_ne (r : Reader) {b : UInt8} (hcr : b ≠ CR) (hlf : b ≠ LF) :
    r.feed b = { r with line := r.line ++ [b], afterCR := false } := by
  rw [feed, if_neg hcr, if_neg hlf]

theorem feed_CR (r : Reader) : r.feed CR = { r.endLine with afterCR := true } := if_pos rfl

theorem feed_LF {r : Reader} (hr : r.afterCR = false) : r.feed LF = r.endLine := by
  rw [feed, if_neg (by decide), if_pos rfl, if_neg (by simp [hr])]

theorem feed_LF_afterCR {r : Reader} (hr : r.afterCR = true) :
    r.feed LF = { r with afterCR := false } := by
  rw [feed, if_neg (by decide), if_pos rfl, if_pos hr]

/-- Bytes that end no line are added to it. -/
theorem foldl_feed_text {text : Bytes} (hcr : CR ∉ text) (hlf : LF ∉ text) (r : Reader)
    (hr : r.afterCR = false) :
    text.foldl feed r = { r with line := r.line ++ text } := by
  induction text generalizing r with
  | nil => rw [List.foldl_nil, List.append_nil]
  | cons b text ih =>
      simp only [List.mem_cons, not_or] at hcr hlf
      rw [List.foldl_cons, feed_of_ne r (Ne.symm hcr.1) (Ne.symm hlf.1), ih hcr.2 hlf.2 _ rfl, hr,
        List.append_assoc, List.singleton_append]

theorem field_data (text : Bytes) :
    field (dataField ++ [colon, space] ++ text) = (dataField, text) := by
  simp [field, dataField, colon, space]

/-- The reader in the line of a framed text. -/
def within (es : List Event) (text : Bytes) : Reader :=
  ⟨dataField ++ [colon, space] ++ text, false, [], [], [], es⟩

/-- The reader after the line of a framed text. -/
def filled (es : List Event) (text : Bytes) : Reader := ⟨[], false, text ++ [LF], [], [], es⟩

theorem foldl_feed_within {text : Bytes} (hcr : CR ∉ text) (hlf : LF ∉ text) (es : List Event) :
    (dataField ++ [colon, space] ++ text).foldl feed (idle es) = within es text := by
  have hcr' : CR ∉ dataField ++ [colon, space] ++ text := by
    rw [List.mem_append, not_or]
    exact ⟨by decide, hcr⟩
  have hlf' : LF ∉ dataField ++ [colon, space] ++ text := by
    rw [List.mem_append, not_or]
    exact ⟨by decide, hlf⟩
  exact foldl_feed_text hcr' hlf' (idle es) rfl

theorem endLine_within (es : List Event) (text : Bytes) :
    (within es text).endLine = filled es text := by
  have hline : (within es text).line ≠ [] := by simp [within, dataField]
  rw [endLine, if_neg hline, within, field_data]
  simp [process, filled]

theorem endLine_filled (es : List Event) (text : Bytes) :
    (filled es text).endLine = idle (es ++ [⟨messageType, text, []⟩]) := by
  simp [endLine, dispatch, filled, idle]

/-- A framed line of text makes one event, whether the text ends in a CR or not. -/
theorem foldl_feed_frame {text : Bytes} (h : OneLine text) (es : List Event) :
    (frame text).foldl feed (idle es) = idle (es ++ [message text]) := by
  have hline := foldl_feed_within h.1 h.2 es
  have hblank : (filled es (chomp text)).feed LF = idle (es ++ [message text]) :=
    (feed_LF rfl).trans (endLine_filled es (chomp text))
  rw [frame, List.foldl_append]
  rcases eq_chomp text with htext | htext
  · rw [← htext] at hline hblank
    have hlf : (within es text).feed LF = filled es text :=
      (feed_LF rfl).trans (endLine_within es text)
    rw [hline, List.foldl_cons, List.foldl_cons, List.foldl_nil, hlf]
    exact hblank
  · -- the CR and the first LF end one line together
    have hcr : (dataField ++ [colon, space] ++ text).foldl feed (idle es) =
        { filled es (chomp text) with afterCR := true } := by
      nth_rewrite 1 [htext]
      rw [← List.append_assoc, List.foldl_append, hline, List.foldl_cons, List.foldl_nil, feed_CR,
        endLine_within]
    have hlf : feed { filled es (chomp text) with afterCR := true } LF = filled es (chomp text) :=
      feed_LF_afterCR rfl
    rw [hcr, List.foldl_cons, List.foldl_cons, List.foldl_nil, hlf]
    exact hblank

end Reader

/-- The events of framed lines are the lines. -/
theorem events_frames {texts : List Bytes} (h : ∀ text ∈ texts, OneLine text) :
    events (texts.flatMap frame) = texts.map message := by
  have hbom : ¬ [0xef, 0xbb, 0xbf].isPrefixOf (texts.flatMap frame) = true := by
    cases texts with
    | nil => decide
    | cons text texts => simp [frame, dataField]
  have hrun : ∀ es, (texts.flatMap frame).foldl Reader.feed (Reader.idle es) =
      Reader.idle (es ++ texts.map message) := by
    clear hbom
    induction texts with
    | nil => simp
    | cons text texts ih =>
        intro es
        rw [List.flatMap_cons, List.foldl_append, Reader.foldl_feed_frame (h text List.mem_cons_self),
          ih (fun t ht => h t (List.mem_cons_of_mem _ ht)), List.map_cons, List.append_assoc,
          List.singleton_append]
  rw [events, if_neg hbom, hrun, List.nil_append]
  rfl

end Ps2Servers.EventStream
