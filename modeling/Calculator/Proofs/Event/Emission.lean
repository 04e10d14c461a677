import Calculator.Proofs.Event.Attribution
import Calculator.Proofs.Event.Working

/-!
# Emitting events

An event that is emitted either leaves all files as they were or adds one line to the file of the
sink (`emit_records`). Which of the two happens depends on the sink and on the event alone: the sink
must work, and the event must fit into a line. The line decodes to the event at its logged level and
with its logged context (`read_lineText_prepared`): clipped, and with a list of the names that the
event lacks, if it lacks any.
-/

set_option autoImplicit false

namespace Calculator

/-! ## What a line says -/

namespace Event

/-- A context, as it is read from the line of an event that lacks some names: the clipped context of
the event, and these names. -/
structure RecordsContext (e : Event) (names : List String) (found : Fields) : Prop where
  nodup : found.names.Nodup
  /-- What has no place in JSON is found as JSON holds it. -/
  clipped : ∀ name, (name = missingName → names = []) →
    Option.Rel Datum.Same ((Fields.get? (clip e.context) name).map Datum.stored) (found.get? name)
  missing : names ≠ [] → found.get? missingName = some (.list (names.map .text))

/-- The fields that are read from the line of an event that lacks some names. -/
structure Records (e : Event) (names : List String) (found : Fields) : Prop where
  length : found.length = 7
  schemaVersion : found.get? "schema_version" = some (.int e.schemaVersion)
  ts : found.get? "ts" = some (.text e.ts)
  /-- An event that lacks a name is a warning, any other has its own level. -/
  level : found.get? "level" = some (.text (if names = [] then e.level else .warning).name)
  eventType : found.get? "event_type" = some (.text e.type.name)
  message : found.get? "message" = some (.text e.message)
  errorCode : found.get? "error_code" = some (.ofText? e.errorCode)
  context : ∃ context, found.get? "context" = some (.record context) ∧
    e.RecordsContext names context

variable {e : Event}

/-- A list of texts is the same only as itself. -/
theorem eq_of_same_texts {names : List String} {d : Datum}
    (h : Datum.Same (Datum.list (names.map .text)).stored d) : d = .list (names.map .text) := by
  obtain ⟨items, rfl, hitems⟩ := h
  refine congrArg Datum.list ?_
  induction names generalizing items with
  | nil => exact hitems
  | cons n rest ih =>
      obtain ⟨d, others, rfl, rfl, hothers⟩ := hitems
      rw [ih others hothers, List.map_cons]
      rfl

/-- What is read from the line of a prepared event is what is said of the event itself. -/
theorem Decoded.records {found : Fields} (h : e.prepared.Decoded found) :
    e.Records e.missing found := by
  rw [prepared_eq] at h
  obtain ⟨context, hcontext, hnodup, hvalues⟩ := h.context
  exact {
    length := h.length
    schemaVersion := h.schemaVersion
    ts := h.ts
    level := h.level
    eventType := h.eventType
    message := h.message
    errorCode := h.errorCode
    context := by
      refine ⟨context, hcontext, hnodup, fun name hname => ?_, fun hne => ?_⟩
      · rw [← get?_loggedContext hname]
        exact hvalues name
      · have hlist := hvalues missingName
        dsimp only at hlist
        rw [get?_missingName hne] at hlist
        generalize context.get? missingName = found at hlist ⊢
        cases hlist with
        | some hsame => rw [eq_of_same_texts hsame] }

/-- **The line of a prepared event decodes to the event**, if it fits into a line. -/
theorem read_lineText_prepared (h : Datum.IsProper (.record e.context))
    (hwritable : e.prepared.IsWritable) :
    ∃ found, Json.read (Sink.lineText e.prepared) = .ok (.record found) ∧
      e.Records e.missing found := by
  have hlogged : Sink.IsLogged e.prepared := by
    refine ⟨?_, hwritable⟩
    rw [prepared_eq]
    exact isProper_loggedContext h
  obtain ⟨found, hread, hdecoded⟩ := hlogged.exists_decoded
  exact ⟨found, hread, hdecoded.records⟩

end Event

/-! ## What happens to the files -/

namespace Sink

/-- The file of a sink has gone on with one line, and all other files are as they were. A missing
file counts as an empty one. -/
structure Adds (files files' : Files) (cwd : Location) (s : Sink) (text : List Char) : Prop where
  isLine : '\n' ∉ text
  bytes? : files'.bytes? (Location.ofPath cwd s.path) =
    some ((files.bytes? (Location.ofPath cwd s.path)).getD [] ++
      Text.Utf8.encode (text ++ ['\n']))
  others : ∀ l, l ≠ Location.ofPath cwd s.path → files'.bytes? l = files.bytes? l

variable {files files' : Files} {cwd : Location} {s : Sink} {e : Event}

/-- What is written adds its line. -/
theorem adds_of_write (h : s.write files cwd e = .ok files') :
    Adds files files' cwd s (lineText e) where
  isLine hmem := absurd (isPlain_lineText e _ hmem) (by decide)
  bytes? := by
    obtain ⟨-, -, between, hmake, happend⟩ := write_eq_ok_iff.1 h
    rw [Files.bytes?_append happend,
      (Files.grown_makeDirectory hmake).bytes?_eq (Location.ofPath cwd s.path)]
    rfl
  others _ hl := bytes?_write_of_ne h hl

end Sink

/-! ## Emitting -/

namespace Journal

/-- **Emitting is total, atomic and faithful.** A journal without a sink does nothing. A journal
with one leaves all files alone, or it adds a line to the file of the sink and changes nothing else;
the latter if and only if the sink works and the event fits into a line as it is logged. The line
decodes to the event, with the names that it lacks, for all contexts in which names are unique. The
event itself is a value, which stays what it is. -/
theorem emit_records (cwd : Location) (now : Rat) (j : Journal) (files : Files) (e : Event) :
    (j.sink = none → j.emit cwd now files e = (j, files)) ∧
      ∀ s, j.sink = some s → ∃ j' files', j.emit cwd now files e = (j', files') ∧ j'.sink = some s ∧
        (¬ (e.prepared.IsWritable ∧ s.IsWorking files cwd) ∧ files' = files ∨
          (e.prepared.IsWritable ∧ s.IsWorking files cwd) ∧ j' = j ∧
            ∃ text, Sink.Adds files files' cwd s text ∧
              (Datum.IsProper (.record e.context) → ∃ names, e.Lacks names ∧
                ∃ found, Json.read text = .ok (.record found) ∧ e.Records names found)) := by
  constructor
  · exact fun hsink => emit_of_none hsink
  · intro s hsink
    by_cases h : e.prepared.IsWritable ∧ s.IsWorking files cwd
    · -- nothing can fail any more, so the line is there
      obtain ⟨files', hwrite⟩ := Sink.exists_write_iff.2 h
      refine ⟨j, files', emit_of_write now hsink hwrite, hsink, .inr ⟨h, rfl, ?_⟩⟩
      refine ⟨Sink.lineText e.prepared, Sink.adds_of_write hwrite, fun hproper => ?_⟩
      exact ⟨e.missing, e.lacks_missing, Event.read_lineText_prepared hproper h.1⟩
    · -- whatever fails, it fails before the file is touched
      have hleft : ∃ j', j.emit cwd now files e = (j', files) ∧ j'.sink = j.sink :=
        emit_of_not hsink h
      obtain ⟨j', hemit, hsame⟩ := hleft
      exact ⟨j', files, hemit, hsame.trans hsink, .inl ⟨h, rfl⟩⟩

/-- An event with a fraction and an infinite value in its context, which does not say of what kind
its error is. -/
def kindlessEvent : Event :=
  .make "2024-01-02T03:04:05Z" .info .evalFailed "division by zero"
    [("source", .text "1/3"), ("value", .number (.ratio (1 / 3))),
     ("bound", .record [("top", .number (.float (1.0 / 0.0)))])]

/-- The event is logged as a warning in a directory that is made for it. -/
theorem emit_records_kindless :
    let journal : Journal := ⟨some ⟨⟨"", ["logs"]⟩, Sink.standardTail⟩, 0, []⟩
    ∃ files' text, journal.emit [] 1000 [] kindlessEvent = (journal, files') ∧
      Sink.Adds [] files' [] ⟨⟨"", ["logs"]⟩, Sink.standardTail⟩ text ∧
      ∃ names, "error_kind" ∈ names ∧
        ∃ found, Json.read text = .ok (.record found) ∧ kindlessEvent.Records names found := by
  intro journal
  have hworks := Sink.isWorking_logs Sink.standardTail
  have hwritable : kindlessEvent.prepared.IsWritable := ⟨by decide +kernel, by decide⟩
  have hproper : Datum.IsProper (.record kindlessEvent.context) :=
    ⟨by decide, trivial, trivial, ⟨by decide, trivial, trivial⟩, trivial⟩
  obtain ⟨j', files', hemit, -, ⟨hnot, -⟩ | ⟨-, rfl, text, hadds, hdecodes⟩⟩ :=
    (emit_records [] 1000 journal [] kindlessEvent).2 _ rfl
  · exact absurd ⟨hwritable, hworks⟩ hnot
  · obtain ⟨names, hlacks, found, hread, hrecords⟩ := hdecodes hproper
    have hkind := (hlacks.mem_iff "error_kind").2 ⟨by decide, rfl⟩
    exact ⟨files', text, hemit, hadds, names, hkind, found, hread, hrecords⟩

end Journal

end Calculator
