import Calculator.Proofs.Event.Tolerance
import Calculator.Proofs.Json.Joined
import Calculator.Proofs.Text.OpenLine
import Mathlib.Data.List.TakeWhile

/-!
# Events behind any content

An event is written behind whatever its file holds. If nothing but blanks stands behind the last
line end, the line of the event is a line of its own: what could be read before is read after it,
and the event first. Otherwise the line of the event goes on with a line that had not ended, and the
two together hold no data, since a record cannot be read behind other text: the event is not read,
nor is what the open line held (`read_written`).
-/

set_option autoImplicit false

namespace Calculator.Sink

variable {files files' : Files} {cwd : Location} {s : Sink} {bytes : List UInt8} {e : Event}
  {limit : Int}

/-! ## Lines that have ended -/

/-- The text of bytes behind the last line end. -/
def openEnd (bytes : List UInt8) : List Char := Text.openLine (Text.Utf8.decodeLossy bytes)

/-- Nothing but blanks stands behind the last line end. -/
def IsEnded (bytes : List UInt8) : Prop := ∀ c ∈ openEnd bytes, Text.isBlank c = true

/-- The lines of bytes that have ended, without the blanks around them. -/
def endedLines (bytes : List UInt8) : List (List Char) :=
  (Text.closedLines (Text.Utf8.decodeLossy bytes)).map Text.trim

/-- The data in the lines that have ended, in order. -/
def endedData (bytes : List UInt8) : List Datum := (endedLines bytes).filterMap Json.read?

theorem trimmedLines_eq (bytes : List UInt8) : trimmedLines bytes =
    endedLines bytes ++ if openEnd bytes = [] then [] else [Text.trim (openEnd bytes)] := by
  rw [trimmedLines, Text.splitLines_eq, List.map_append, apply_ite (List.map Text.trim)]
  rfl

/-- All data is in lines that have ended, but for that of the open line. -/
theorem dataIn_eq (bytes : List UInt8) :
    dataIn bytes = endedData bytes ++ (Json.read? (Text.trim (openEnd bytes))).toList := by
  rw [dataIn, trimmedLines_eq, List.filterMap_append, ← endedData]
  split
  · rename_i hopen
    rw [hopen]
    rfl
  · cases hread : Json.read? (Text.trim (openEnd bytes)) <;> simp [hread]

theorem isEnded_iff : IsEnded bytes ↔ (openEnd bytes).dropWhile Text.isBlank = [] :=
  List.dropWhile_eq_nil_iff.symm

theorem IsEnded.trim_openEnd (h : IsEnded bytes) : Text.trim (openEnd bytes) = [] := by
  rw [Text.trim, isEnded_iff.1 h]
  rfl

theorem IsEnded.dataIn_eq (h : IsEnded bytes) : dataIn bytes = endedData bytes := by
  rw [Sink.dataIn_eq, h.trim_openEnd]
  exact List.append_nil _

/-- The reader does not fail at an open line of blanks. -/
theorem IsEnded.forall_isReadable_iff (h : IsEnded bytes) :
    (∀ l ∈ trimmedLines bytes, IsReadable l) ↔ ∀ l ∈ endedLines bytes, IsReadable l := by
  have hblank : IsReadable [] := fun cause hread => nomatch hread
  rw [trimmedLines_eq, List.forall_mem_append, h.trim_openEnd]
  refine ⟨And.left, fun hlines => ⟨hlines, ?_⟩⟩
  split
  · exact List.forall_mem_nil _
  · exact List.forall_mem_singleton.2 hblank

/-! ## The line of an event behind others -/

/-- The line of an event starts with a name. -/
theorem exists_lineText_eq_named (e : Event) :
    ∃ c k, Json.IsOrdinary c ∧ lineText e = Json.named c k := by
  -- whichever of the names comes first in their order, it starts with a small letter
  have hperm := Datum.perm_sortedFields e.fields
  have hsmall : e.fields.names.all Json.startsSmall = true := by
    show ["schema_version", "ts", "level", "event_type", "context", "message",
      "error_code"].all Json.startsSmall = true
    decide
  apply Json.exists_compact_eq_named
  · intro hnil
    rw [hnil] at hperm
    cases hperm.nil_eq
  · intro name hname
    rw [← Datum.names_sortedFields] at hsmall
    exact List.all_eq_true.1 hsmall name ((hperm.map Prod.fst).mem_iff.1 hname)

theorem goesOnPlainly_line (e : Event) : Text.Utf8.GoesOnPlainly (Text.Utf8.encode (line e)) := by
  obtain ⟨inner, hline⟩ := line_eq e
  rw [hline]
  intro b hb
  obtain rfl : 0x7B = b := Option.some.inj hb
  decide

/-- The text of the line of an event behind others. -/
theorem decodeLossy_append_line (bytes : List UInt8) (e : Event) :
    Text.Utf8.decodeLossy (bytes ++ Text.Utf8.encode (line e)) =
      Text.Utf8.decodeLossy bytes ++ line e := by
  have hone := decodeLossy_lines [e]
  rw [List.flatMap_singleton, List.flatMap_singleton] at hone
  rw [Text.Utf8.decodeLossy_append (goesOnPlainly_line e), hone]

/-- The last line once an event has been written: what stood behind the last line end, and the line
of the event. -/
def joinedLine (bytes : List UInt8) (e : Event) : List Char :=
  (openEnd bytes).dropWhile Text.isBlank ++ lineText e

/-- **The line of an event goes on with the open line.** -/
theorem trimmedLines_append_line (bytes : List UInt8) (e : Event) :
    trimmedLines (bytes ++ Text.Utf8.encode (line e)) =
      endedLines bytes ++ [joinedLine bytes e] := by
  have hplain : ∀ c ∈ lineText e, Text.isLineBoundary c = false := fun c hc =>
    (isPlain_lineText e c hc).not_lineBoundary
  have hlines := Text.splitLines_append_line (Text.Utf8.decodeLossy bytes) hplain
    (lineText_ne_nil e)
  obtain ⟨inner, hinner⟩ := lineText_eq e
  have htrim : Text.trim (openEnd bytes ++ lineText e) = joinedLine bytes e := by
    rw [joinedLine, hinner]
    exact Text.trim_append_enclosed (by decide) (by decide) _ inner
  rw [trimmedLines, decodeLossy_append_line]
  show (Text.splitLines (Text.Utf8.decodeLossy bytes ++ (lineText e ++ ['\n']))).map Text.trim = _
  rw [hlines, List.map_append, List.map_singleton]
  exact congrArg (endedLines bytes ++ [·]) htrim

theorem dataIn_append_line (bytes : List UInt8) (e : Event) :
    dataIn (bytes ++ Text.Utf8.encode (line e)) =
      endedData bytes ++ (Json.read? (joinedLine bytes e)).toList := by
  rw [dataIn, trimmedLines_append_line, List.filterMap_append, ← endedData]
  cases hread : Json.read? (joinedLine bytes e) <;> simp [hread]

section Logged

variable (h : IsLogged e)

include h

theorem IsLogged.read_joinedLine (hended : IsEnded bytes) :
    Json.read (joinedLine bytes e) = .ok (recorded e) := by
  rw [joinedLine, isEnded_iff.1 hended]
  exact h.read_lineText

/-- **No data is read from the line of an event that goes on with an open line.** -/
theorem IsLogged.read?_joinedLine (hopen : ¬ IsEnded bytes) :
    Json.read? (joinedLine bytes e) = none := by
  obtain ⟨c, k, hc, hnamed⟩ := exists_lineText_eq_named e
  rw [isEnded_iff] at hopen
  obtain ⟨a, y, hfront⟩ := List.exists_cons_of_ne_nil hopen
  have htext : Text.isBlank a = false :=
    of_mem_head?_dropWhile (s := openEnd bytes) (by rw [hfront]; rfl)
  -- the reader takes fewer characters for blanks than there are
  have hblank : Json.isBlank a = false :=
    Json.isBlank_eq_false (p := fun c => !Text.isBlank c) rfl (by rw [htext]; rfl)
  rw [joinedLine, hfront, hnamed]
  exact Json.read?_append_eq_none hc (hnamed ▸ h.read_lineText) hblank

end Logged

/-! ## Reading what has been written -/

/-- Without a filter the latest data is what stands at the end. -/
theorem latest_eq_take (hlimit : 0 ≤ limit) (all : List Datum) :
    latest none none limit all = all.reverse.take (min limit mostEvents).toNat := by
  have hmost : 0 ≤ min limit mostEvents := Int.le_min.2 ⟨hlimit, by decide⟩
  have hall : all.filter (passes none none) = all := List.filter_eq_self.2 fun d _ => rfl
  rw [latest, hall, firstOf, if_pos hmost]

theorem latest_append_singleton (hlimit : 1 ≤ limit) (all : List Datum) (d : Datum) :
    latest none none limit (all ++ [d]) =
      d :: (latest none none limit all).take ((min limit mostEvents).toNat - 1) := by
  have hnonneg : 0 ≤ limit := Int.le_trans (by decide) hlimit
  obtain ⟨n, hn⟩ : ∃ n, (min limit mostEvents).toNat = n + 1 := by
    refine Nat.exists_eq_add_one.2 ?_
    have hmost : 1 ≤ min limit mostEvents := Int.le_min.2 ⟨hlimit, by decide⟩
    omega
  rw [latest_eq_take hnonneg, latest_eq_take hnonneg, hn, List.reverse_append,
    List.reverse_singleton, List.singleton_append, List.take_succ_cons, List.take_take]
  simp

/-- What is read without a filter from a file that fits into the tail. -/
theorem read_eq_ok_iff_fitting {locking : Locking} (h : Holds files cwd s bytes)
    (hsize : (bytes.length : Int) ≤ s.tailBytes) {found : List Datum} :
    s.read locking files cwd none none limit = .ok found ↔
      (∀ l ∈ trimmedLines bytes, IsReadable l) ∧ found = latest none none limit (dataIn bytes) := by
  have hpositive : 0 ≤ s.tailBytes := Int.le_trans (Int.natCast_nonneg _) hsize
  have hinactive : ¬ (IsActive none ∨ IsActive none) := fun h => h.elim (·.1 rfl) (·.1 rfl)
  rw [read_eq_ok_iff_lines h hpositive, tail_of_length_le hsize]
  exact and_congr_right' (and_iff_right fun hactive => absurd hactive hinactive)

/-- **A written event is read first if the content before it had ended, and is lost otherwise.**
Whatever the file of a sink holds, an event is written behind it, and the file fits into the tail
then. If nothing but blanks stood behind the last line end, the log can be read exactly if it could
be read before: first the event, and then all that was read before, in the same order and up to the
limit. If anything else stood there, it is one line with the event, and neither of them is read: the
log can be read exactly if the JSON reader fails at none of its lines, and what is read is the data
of the lines that had ended before. -/
theorem read_written (locking : Locking) (h : Holds files cwd s bytes)
    (hwrite : s.write files cwd e = .ok files')
    (hproper : Datum.IsProper (.record e.context))
    (hsize : ((bytes ++ Text.Utf8.encode (line e)).length : Int) ≤ s.tailBytes)
    (hlimit : 1 ≤ limit) (found' : List Datum) :
    (IsEnded bytes → (s.read locking files' cwd none none limit = .ok found' ↔
      ∃ found, s.read locking files cwd none none limit = .ok found ∧
        found' = recorded e :: found.take ((min limit mostEvents).toNat - 1))) ∧
    (¬ IsEnded bytes → (s.read locking files' cwd none none limit = .ok found' ↔
      (∀ l ∈ endedLines bytes ++ [joinedLine bytes e], IsReadable l) ∧
        found' = latest none none limit (endedData bytes))) := by
  obtain ⟨hintegers, hdepth, -⟩ := write_eq_ok_iff.1 hwrite
  have hlogged : IsLogged e := ⟨hproper, hintegers, hdepth⟩
  have hsizeBefore : (bytes.length : Int) ≤ s.tailBytes := by
    rw [List.length_append] at hsize
    omega
  rw [read_eq_ok_iff_fitting (h.write hwrite) hsize, trimmedLines_append_line, dataIn_append_line]
  constructor
  · -- the event is alone on its line, so what was read before stays as it was
    intro hended
    have hevent := hlogged.read_joinedLine hended
    have hreadable : IsReadable (joinedLine bytes e) := by
      intro cause hread
      rw [hevent] at hread
      cases hread
    have hdata : Json.read? (joinedLine bytes e) = some (recorded e) := by
      rw [Json.read?, hevent]
      rfl
    simp only [read_eq_ok_iff_fitting h hsizeBefore, hended.forall_isReadable_iff, hended.dataIn_eq]
    rw [List.forall_mem_append, List.forall_mem_singleton, and_iff_left hreadable, hdata,
      Option.toList_some, latest_append_singleton hlimit]
    constructor
    · rintro ⟨hlines, rfl⟩
      exact ⟨_, ⟨hlines, rfl⟩, rfl⟩
    · rintro ⟨_, ⟨hlines, rfl⟩, rfl⟩
      exact ⟨hlines, rfl⟩
  · -- the line of the event goes on with the open line, and nothing is read from the two
    intro hopen
    rw [hlogged.read?_joinedLine hopen, Option.toList_none, List.append_nil]

/-- The bytes of a log with one record and some text behind it. -/
def levelBytes (behind : List Char) : List UInt8 := Text.Utf8.encode (levelLine ++ behind)

/-- The files of such a log, once more has been written behind. -/
def levelFiles (behind : List Char) (more : List (List UInt8)) : Files :=
  [([fileName], .file (more ++ [levelBytes behind]))]

/-- A sink whose tail is as long as this log once a session has started. -/
def levelSink (behind : List Char) : Sink :=
  ⟨⟨"", []⟩, (levelBytes behind ++ Text.Utf8.encode (line startEvent)).length⟩

theorem holds_levelFiles (behind : List Char) :
    Holds (levelFiles behind []) [] (levelSink behind) (levelBytes behind) :=
  .inl (Node.bytes?_ofBytes _)

theorem write_levelFiles (behind : List Char) :
    (levelSink behind).write (levelFiles behind []) [] startEvent =
      .ok (levelFiles behind [Text.Utf8.encode (line startEvent)]) :=
  write_eq_ok_iff.2 ⟨by decide +kernel, by decide, levelFiles behind [], rfl, rfl⟩

theorem decodeLossy_levelBytes (behind : List Char)
    (h : (levelLine ++ behind).all (fun c => decide (c.toNat < 0x80)) = true) :
    Text.Utf8.decodeLossy (levelBytes behind) = levelLine ++ behind :=
  Text.Utf8.decodeLossy_encode fun c hc => of_decide_eq_true (List.all_eq_true.1 h c hc)

theorem length_levelBytes_le (behind : List Char) :
    ((levelBytes behind).length : Int) ≤ (levelSink behind).tailBytes := by
  simp [levelSink]

/-- Behind a line end the start of a session is read, and the record as before. -/
theorem read_written_lineEnd :
    ∃ files', (levelSink ['\n']).write (levelFiles ['\n'] []) [] startEvent = .ok files' ∧
      (levelSink ['\n']).read .locked files' [] none none 200 =
        .ok [recorded startEvent, .record [("level", .text "info")]] := by
  have hdecode := decodeLossy_levelBytes ['\n'] rfl
  have hended : IsEnded (levelBytes ['\n']) := by
    rw [isEnded_iff, openEnd, hdecode]
    rfl
  have hparse : parse (levelBytes ['\n']) = .ok [.record [("level", .text "info")]] := by
    rw [parse, hdecode]
    rfl
  obtain ⟨hreadable, hdata⟩ := parse_eq_ok_iff.1 hparse
  have hbefore : (levelSink ['\n']).read .locked (levelFiles ['\n'] []) [] none none 200 =
      .ok [.record [("level", .text "info")]] :=
    (read_eq_ok_iff_fitting (holds_levelFiles _) (length_levelBytes_le _)).2
      ⟨hreadable, hdata ▸ rfl⟩
  have hread := (read_written .locked (holds_levelFiles ['\n']) (write_levelFiles ['\n'])
    isLogged_startEvent.isProper (Int.le_refl _) (by decide : (1 : Int) ≤ 200)
    [recorded startEvent, .record [("level", .text "info")]]).1 hended
  exact ⟨_, write_levelFiles ['\n'], hread.2 ⟨_, hbefore, rfl⟩⟩

/-- Behind an open line the start of a session is not read, and the record no longer. -/
theorem read_written_openLine :
    (levelSink []).read .locked (levelFiles [] []) [] none none 200 =
        .ok [.record [("level", .text "info")]] ∧
      ∃ files', (levelSink []).write (levelFiles [] []) [] startEvent = .ok files' ∧
        (levelSink []).read .locked files' [] none none 200 = .ok [] := by
  have hdecode := decodeLossy_levelBytes [] rfl
  have hparse : parse (levelBytes []) = .ok [.record [("level", .text "info")]] := by
    rw [parse, hdecode]
    rfl
  obtain ⟨hreadable, hdata⟩ := parse_eq_ok_iff.1 hparse
  refine ⟨(read_eq_ok_iff_fitting (holds_levelFiles []) (length_levelBytes_le _)).2
    ⟨hreadable, hdata ▸ rfl⟩, _, write_levelFiles [], ?_⟩
  have hended : endedLines (levelBytes []) = [] := by
    rw [endedLines, hdecode]
    rfl
  have hjoined : Json.read (joinedLine (levelBytes []) startEvent) = .error .malformed := by
    obtain ⟨inner, hinner⟩ := lineText_eq startEvent
    rw [joinedLine, openEnd, hdecode, hinner]
    rfl
  have hmalformed : IsReadable (joinedLine (levelBytes []) startEvent) := by
    intro cause hread
    rw [hjoined] at hread
    cases hread
  refine (read_eq_ok_iff_fitting ((holds_levelFiles []).write (write_levelFiles []))
    (Int.le_refl _)).2 ?_
  rw [trimmedLines_append_line, dataIn_append_line, endedData, hended, Json.read?, hjoined]
  exact ⟨List.forall_mem_singleton.2 hmalformed, rfl⟩

end Calculator.Sink
