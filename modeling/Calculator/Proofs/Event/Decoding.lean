import Calculator.Proofs.Event.RoundTrip
import Calculator.Proofs.Json.Stored

/-!
# What a line says

An event is logged in one line if its integers are short enough to be written, it is not nested too
deeply, and no record in its context has a name twice (`Sink.IsLogged`). From this line all fields
of the event are read back, and each value of its context as JSON holds it
(`Sink.IsLogged.exists_decoded`).
-/

set_option autoImplicit false

namespace Calculator

namespace Event

/-- An event that fits into a line: its integers are short enough to be written, and it is not
nested too deeply. -/
def IsWritable (e : Event) : Prop :=
  e.datum.isWritable = true ∧ e.datum.depth ≤ Json.deepest

/-- The fields that are read from the line of an event. -/
structure Decoded (e : Event) (found : Fields) : Prop where
  length : found.length = 7
  schemaVersion : found.get? "schema_version" = some (.int e.schemaVersion)
  ts : found.get? "ts" = some (.text e.ts)
  level : found.get? "level" = some (.text e.level.name)
  eventType : found.get? "event_type" = some (.text e.type.name)
  message : found.get? "message" = some (.text e.message)
  errorCode : found.get? "error_code" = some (.ofText? e.errorCode)
  /-- What has no place in JSON is found as JSON holds it. -/
  context : ∃ context : Fields, found.get? "context" = some (.record context) ∧
    context.names.Nodup ∧ ∀ name,
      Option.Rel Datum.Same ((e.context.get? name).map Datum.stored) (context.get? name)

variable {e : Event}

theorem isProper_datum (h : Datum.IsProper (.record e.context)) : e.datum.IsProper := by
  have hcode : (Datum.ofText? e.errorCode).IsProper := by
    cases e.errorCode <;> trivial
  exact ⟨e.nodup_names, trivial, trivial, trivial, trivial, h, trivial, hcode, trivial⟩

/-- The fields of an event are held under their names. -/
theorem decoded_held (h : Datum.IsProper (.record e.context)) : e.Decoded e.fields.held := by
  have hheld (name : String) {d : Datum} (hd : e.fields.get? name = some d) :
      e.fields.held.get? name = some d.stored.sorted := by
    rw [Fields.get?_held e.nodup_names, hd]
    rfl
  exact {
    length := Fields.length_held _
    schemaVersion := hheld "schema_version" rfl
    ts := hheld "ts" rfl
    level := hheld "level" rfl
    eventType := hheld "event_type" rfl
    message := hheld "message" rfl
    errorCode := by
      rw [hheld "error_code" rfl]
      cases e.errorCode with
      | none => rfl
      | some code => rfl
    context := by
      refine ⟨e.context.held, hheld "context" rfl, Fields.nodup_held h.1, fun name => ?_⟩
      rw [Fields.get?_held h.1]
      cases hd : e.context.get? name with
      | none => exact .none
      | some d =>
          -- records inside the value come back with their fields in another order
          have hproper := Datum.areProperFields_iff.1 h.2 _ (Fields.mem_of_get? hd)
          exact .some (Datum.same_sorted _ (Datum.isProper_stored d hproper)) }

end Event

namespace Sink

/-- An event whose line can have been written, in a context where names are unique. -/
structure IsLogged (e : Event) : Prop where
  isProper : Datum.IsProper (.record e.context)
  isWritable : e.IsWritable

/-- An event as it is read from its line. -/
def recorded (e : Event) : Datum := e.datum.stored.sorted

theorem IsLogged.read_lineText {e : Event} (h : IsLogged e) :
    Json.read (lineText e) = .ok (recorded e) :=
  Json.read_sorted (Event.isProper_datum h.isProper) h.isWritable.1 h.isWritable.2

/-- **The line of an event decodes to the event.** -/
theorem IsLogged.exists_decoded {e : Event} (h : IsLogged e) :
    ∃ found, Json.read (lineText e) = .ok (.record found) ∧ e.Decoded found :=
  ⟨e.fields.held, h.read_lineText, Event.decoded_held h.isProper⟩

end Sink

end Calculator
