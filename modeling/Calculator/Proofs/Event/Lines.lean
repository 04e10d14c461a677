import Calculator.Event.Sink
import Calculator.Proofs.Json.RoundTrip

/-!
# Lines of events

The line of an event is printable ASCII between braces, so it is one line (`isLine_line`), which is
neither cut nor trimmed when the lines of a file are taken apart: the lines of events are parsed one
by one and in their order (`parse_lines_of_read`), those of legible events to the events themselves
(`parse_lines`).
-/

set_option autoImplicit false

namespace Calculator.Sink

open Text (IsPlain)

/-- An event that is read back from its line. -/
structure IsLegible (e : Event) : Prop where
  datum : Json.Legible e.datum.sorted
  depth : e.datum.depth ≤ Json.deepest

/-- The line of an event without its end. -/
def lineText (e : Event) : List Char := Json.compact e.datum.sorted

variable {e : Event} {events : List Event}

/-! ## One line -/

theorem lineText_eq (e : Event) : ∃ inner, lineText e = '\x7b' :: (inner ++ ['\x7d']) :=
  ⟨Json.compactFields ((Datum.sortedFields e.fields).mergeSort Fields.before), rfl⟩

/-- The line of an event starts with a brace and ends in a brace and a line feed. -/
theorem line_eq (e : Event) : ∃ inner, line e = '\x7b' :: (inner ++ ['\x7d']) ++ ['\n'] := by
  obtain ⟨inner, hinner⟩ := lineText_eq e
  exact ⟨inner, congrArg (· ++ ['\n']) hinner⟩

theorem isPlain_lineText (e : Event) : ∀ c ∈ lineText e, IsPlain c :=
  Json.isPlain_compact _

/-- Text without line feeds, and a line feed behind it. -/
def IsLine (s : List Char) : Prop := ∃ text, '\n' ∉ text ∧ s = text ++ ['\n']

/-- **An event is written as one line**, whatever it holds. -/
theorem isLine_line (e : Event) : IsLine (line e) :=
  ⟨lineText e, fun h => absurd (isPlain_lineText e _ h) (by decide), rfl⟩

theorem trim_lineText (e : Event) : Text.trim (lineText e) = lineText e := by
  obtain ⟨inner, hinner⟩ := lineText_eq e
  rw [hinner]
  exact Text.trim_enclosed (by decide) (by decide) inner

theorem lineText_ne_nil (e : Event) : lineText e ≠ [] := by
  obtain ⟨inner, hinner⟩ := lineText_eq e
  rw [hinner]
  exact List.cons_ne_nil _ _

/-- What is read from the line of an event is what the line is parsed to. -/
theorem parseLine_lineText {d : Datum} (h : Json.read (lineText e) = .ok d) :
    parseLine (lineText e) = .ok (some d) := by
  rw [parseLine, h]

/-- From the line of a legible event the event is read. -/
theorem read_lineText (h : IsLegible e) : Json.read (lineText e) = .ok e.datum.sorted := by
  have hdepth : e.datum.sorted.depth ≤ Json.deepest := (Datum.depth_sorted e.datum).symm ▸ h.depth
  exact Json.read_compact h.datum hdepth

/-! ## Many lines -/

theorem filterMapM_lineText {seen : Event → Datum}
    (h : ∀ e ∈ events, Json.read (lineText e) = .ok (seen e)) :
    (events.map lineText).filterMapM (fun l => if l = [] then pure none else parseLine l) =
      .ok (events.map seen) := by
  induction events with
  | nil => rfl
  | cons e rest ih =>
      have hrest := ih fun e' he' => h e' (List.mem_cons_of_mem e he')
      rw [List.map_cons, List.filterMapM_cons, if_neg (lineText_ne_nil e),
        parseLine_lineText (h e List.mem_cons_self), hrest]
      rfl

/-- The lines of events, each with a line feed behind it, are found one by one. -/
theorem splitLines_lines (events : List Event) :
    Text.splitLines (events.flatMap line) = events.map lineText := by
  have hlines : events.flatMap line = (events.map lineText).flatMap (· ++ ['\n']) := by
    rw [List.flatMap_map]
    rfl
  rw [hlines]
  apply Text.splitLines_flatMap
  intro l hl c hc
  obtain ⟨e, he, rfl⟩ := List.mem_map.1 hl
  exact (isPlain_lineText e c hc).not_lineBoundary

theorem encode_lines (events : List Event) :
    (events.flatMap fun e => Text.Utf8.encode (line e)) =
      Text.Utf8.encode (events.flatMap line) := by
  rw [Text.Utf8.encode, List.flatMap_assoc]
  rfl

/-- The lines of events are decoded as they were encoded. -/
theorem decodeLossy_lines (events : List Event) :
    Text.Utf8.decodeLossy (events.flatMap fun e => Text.Utf8.encode (line e)) =
      events.flatMap line := by
  have hascii : ∀ c ∈ events.flatMap line, c.toNat < 0x80 := by
    intro c hc
    obtain ⟨e, he, hc⟩ := List.mem_flatMap.1 hc
    rcases List.mem_append.1 hc with hc | hc
    · exact Nat.lt_succ_of_le (Nat.le_succ_of_le (isPlain_lineText e c hc).bounds.2)
    · obtain rfl := List.mem_singleton.1 hc
      decide
  rw [encode_lines, Text.Utf8.decodeLossy_encode hascii]

/-- **The lines of events are parsed to what is read from them one by one.** -/
theorem parse_lines_of_read {seen : Event → Datum}
    (h : ∀ e ∈ events, Json.read (lineText e) = .ok (seen e)) :
    parse (events.flatMap fun e => Text.Utf8.encode (line e)) = .ok (events.map seen) := by
  have htrim : (events.map lineText).map Text.trim = events.map lineText := by
    rw [List.map_map]
    exact List.map_congr_left fun e _ => trim_lineText e
  rw [parse, decodeLossy_lines, parseLines, splitLines_lines, htrim, filterMapM_lineText h]

/-- **The lines of legible events are parsed to the events**, each with its fields in the order of
their names. -/
theorem parse_lines (h : ∀ e ∈ events, IsLegible e) :
    parse (events.flatMap fun e => Text.Utf8.encode (line e)) =
      .ok (events.map fun e => e.datum.sorted) :=
  parse_lines_of_read fun e he => read_lineText (h e he)

theorem parse_nil : parse [] = .ok [] := @parse_lines [] fun _ he => nomatch he

end Calculator.Sink
